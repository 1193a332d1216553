import Datapath.Windows.Server.Phases

/-!
# The handles of a server

The three places in which a server keeps its handles are together a ledger of the
open ones (`handles_partitioned`): no phase loses a handle or has one twice, even
when it closes surplus instances.

The list `sockets` is meant to be a ledger of the open handles as well.  It is one
until the verify phase meets more dead connections than the backlog has room for:
the surplus instances are closed, but they stay in `sockets`, and `close` closes
them again (`handles_closed_once`).
-/

namespace Datapath.Windows

open Datapath.Lib

namespace Server

variable {W : Type*} {s : Server W} {rest : List HANDLE}

/-! ## The three places -/

/-- The waiting, the pending and the active handles are the open ones, each in one
place and once, and all of them are listed in `sockets`.  The pending handles are a
parameter, since the accept phase keeps those it has visited in the list. -/
structure Books (s : Server W) (pending : List HANDLE) : Prop where
  ledger : Ledger s.kernel.Open
    (s.waitingSockets ++ pending ++ OrderedMap.keys s.activeSockets)
  listed : ∀ h, s.kernel.Open h → h ∈ s.sockets

/-- The handle lists partition the open instances. -/
def Partitioned (s : Server W) : Prop := s.Books s.pendingSockets

theorem Books.congr {s' : Server W} (h : s.Books rest) (hw : s'.waitingSockets = s.waitingSockets)
    (ha : s'.activeSockets = s.activeSockets) (hs : s'.sockets = s.sockets)
    (hk : ∀ b, s'.kernel.Open b ↔ s.kernel.Open b) : s'.Books rest where
  ledger := by rw [hw, ha]; exact h.ledger.congr hk
  listed b hb := by rw [hs]; exact h.listed b ((hk b).1 hb)

/-- Opening an instance adds it to the waiting ones. -/
theorem Books.opened (h : s.Books rest) {a : HANDLE} (hnew : ¬ s.kernel.Open a) :
    (s.opened a).Books rest where
  ledger := by
    refine (h.ledger.alloc hnew fun _ ↦ open_opened).perm ?_
    show List.Perm _ (s.waitingSockets ++ [a] ++ rest ++ _)
    simp only [List.append_assoc]
    exact List.perm_middle.symm
  listed b hb := by
    show b ∈ s.sockets ++ [a]
    rcases open_opened.1 hb with rfl | hb
    · exact List.mem_append_right _ (List.mem_singleton.2 rfl)
    · exact List.mem_append_left _ (h.listed b hb)

theorem Books.restock (h : s.Books rest) (reply : Option HANDLE) : (restock reply s).Books rest := by
  rcases restock_cases reply s with ⟨hr, -⟩ | hr | ⟨a, -, hnew, -, hr⟩
  · rw [hr]
    exact h
  · rw [hr]
    exact h.congr rfl rfl rfl fun _ ↦ .rfl
  · rw [hr]
    exact h.opened hnew

/-- A handle that is about to be offered is not active. -/
theorem Books.not_active {a : HANDLE} (h : s.Books (a :: rest)) :
    a ∉ OrderedMap.keys s.activeSockets := by
  have hnodup := h.ledger.nodup
  rw [List.append_assoc, List.cons_append, List.nodup_middle, List.nodup_cons] at hnodup
  intro hmem
  exact hnodup.1 (List.mem_append_right _ (List.mem_append_right _ hmem))

/-- The handle offered moves to the active or back to the waiting ones. -/
theorem Books.settle {a : HANDLE} (h : s.Books (a :: rest)) (offer : Offer W) :
    (s.settle offer a).Books rest := by
  unfold Server.settle
  split
  case isTrue =>
    apply Books.restock
    refine ⟨h.ledger.perm ?_, h.listed⟩
    simp only [List.append_assoc, List.cons_append]
    refine .append_left _ (.trans ?_ ((OrderedMap.keys_insert_perm h.not_active).symm.append_left rest))
    exact List.perm_middle.symm
  case isFalse =>
    refine ⟨(h.ledger.congr fun _ ↦ Kernel.open_disconnectNamedPipe).perm ?_, fun b hb ↦ ?_⟩
    · simp only [List.append_assoc, List.cons_append]
      exact .refl _
    · exact h.listed b (Kernel.open_disconnectNamedPipe.1 hb)

theorem Books.acceptPhase (h : s.Partitioned) (onAccept : Bool) (offer : HANDLE → Offer W) :
    (s.acceptPhase onAccept offer).Partitioned := by
  cases onAccept with
  | false => exact h
  | true =>
      rw [acceptPhase_eq]
      have hall : (s.settleAll offer s.pendingSockets).Books [] :=
        foldl_rule (I := fun rest (s : Server W) ↦ s.Books rest) (fun a _ _ hb ↦ hb.settle (offer a)) h
      exact hall.congr rfl rfl rfl fun _ ↦ .rfl

/-- A dead connection moves to the waiting handles, or is closed. -/
theorem Books.retire (h : s.Partitioned) {a : HANDLE} (ha : a ∈ OrderedMap.keys s.activeSockets)
    (toKill : List HANDLE) : (retire a s toKill).1.Partitioned := by
  have hkeys := OrderedMap.keys_erase_perm (List.nodup_append.1 h.ledger.nodup).2.1 ha
  rcases retire_cases a s toKill with ⟨-, hr⟩ | ⟨-, hr⟩
  · rw [hr]
    refine ⟨h.ledger.perm ?_, h.listed⟩
    show List.Perm _ (s.waitingSockets ++ [a] ++ s.pendingSockets ++ _)
    simp only [List.append_assoc, List.singleton_append]
    exact .append_left _ ((hkeys.append_left _).trans List.perm_middle)
  · rw [hr]
    refine ⟨(h.ledger.perm ?_).free (a := a) fun _ ↦ open_kill, fun b hb ↦ ?_⟩
    · exact (hkeys.append_left _).trans List.perm_middle
    · exact h.listed b (open_kill.1 hb).2

/-- What the loop over the active sockets keeps: `entries` are still to be visited,
and what has been killed is no longer active. -/
structure Verifying (entries : OrderedMap HANDLE W) (st : Server W × List HANDLE) : Prop where
  books : st.1.Partitioned
  active : ∀ e ∈ entries, e.1 ∈ OrderedMap.keys st.1.activeSockets
  nodup : (OrderedMap.keys entries).Nodup
  killed : ∀ a ∈ st.2, a ∉ OrderedMap.keys st.1.activeSockets

theorem Verifying.step {e : HANDLE × W} {entries : OrderedMap HANDLE W}
    {st : Server W × List HANDLE} (h : Verifying (e :: entries) st) (expired good : W → Bool) :
    Verifying entries (verifyOne expired good st e) := by
  obtain ⟨s, toKill⟩ := st
  have hnodup := List.nodup_cons.1 h.nodup
  have hother : ∀ e' ∈ entries, e'.1 ≠ e.1 := fun e' he' heq ↦
    hnodup.1 (heq ▸ List.mem_map_of_mem he')
  rw [verifyOne_eq]
  split
  case isTrue =>
    have hbooks := Books.retire h.books (h.active e List.mem_cons_self) toKill
    have hstill : ∀ e' ∈ entries, e'.1 ∈ OrderedMap.keys (OrderedMap.erase e.1 s.activeSockets) :=
      fun e' he' ↦ OrderedMap.mem_keys_erase.2 ⟨h.active e' (List.mem_cons_of_mem _ he'), hother e' he'⟩
    have hgone : ∀ a, a ∈ toKill ∨ a = e.1 →
        a ∉ OrderedMap.keys (OrderedMap.erase e.1 s.activeSockets) := by
      intro a ha hmem
      rw [OrderedMap.mem_keys_erase] at hmem
      rcases ha with ha | ha
      · exact h.killed a ha hmem.1
      · exact hmem.2 ha
    rcases retire_cases e.1 s toKill with ⟨-, hr⟩ | ⟨-, hr⟩
    · rw [hr] at hbooks ⊢
      exact ⟨hbooks, hstill, hnodup.2, fun a ha ↦ hgone a (.inl ha)⟩
    · rw [hr] at hbooks ⊢
      refine ⟨hbooks, hstill, hnodup.2, fun a ha ↦ hgone a ?_⟩
      exact (List.mem_append.1 ha).imp id List.mem_singleton.1
  case isFalse =>
    exact ⟨h.books, fun e' he' ↦ h.active e' (List.mem_cons_of_mem _ he'), hnodup.2, h.killed⟩

theorem Books.verifyPhase (h : s.Partitioned) (expired good : W → Bool) :
    (s.verifyPhase expired good).Partitioned := by
  obtain ⟨hbooks, -, -, hkilled⟩ := foldl_rule (f := verifyOne expired good) (I := Verifying)
    (fun _ _ _ hv ↦ hv.step expired good) (l := s.activeSockets) (s := (s, []))
    ⟨h, fun e he ↦ List.mem_map_of_mem he, (List.nodup_append.1 h.ledger.nodup).2.1, nofun⟩
  refine hbooks.congr rfl ?_ rfl fun _ ↦ .rfl
  apply List.filter_eq_self.2
  intro e he
  simp only [decide_eq_true_eq]
  intro hkill
  exact hkilled e.1 hkill (List.mem_map_of_mem he)

theorem Books.connectPhase (h : s.Partitioned) {connect : HANDLE → ConnectReply}
    (hzero : ∀ h, (connect h).suc = false) (hov : s.ovmap = []) :
    (s.connectPhase connect).Partitioned := by
  obtain ⟨captured, heq⟩ := connectPhase_eq hzero hov
  rw [heq]
  refine ⟨(h.ledger.congr fun _ ↦ open_foldl_connectNamedPipe).perm ?_, fun b hb ↦ ?_⟩
  · refine .append_right _ ?_
    show List.Perm _ (_ ++ (s.pendingSockets ++ _))
    refine .trans ?_ (List.perm_append_comm_assoc _ _ _)
    refine (List.perm_append_comm).trans (.append_left _ ?_)
    exact (List.perm_append_comm.trans (List.filter_append_perm _ _)).symm
  · exact h.listed b (open_foldl_connectNamedPipe.1 hb)

/-! ## Runs -/

/-- Closing the server leaves nothing open. -/
theorem Books.close (h : s.Books rest) : s.close.Partitioned := by
  have hnone : ∀ b, ¬ s.close.kernel.Open b := by
    intro b hb
    obtain ⟨hout, hopen⟩ := open_foldl_kill.1 hb
    exact hout (h.listed b hopen)
  exact ⟨⟨List.nodup_nil, fun b ↦ ⟨fun hb ↦ absurd hb (hnone b), nofun⟩⟩, fun b hb ↦ absurd hb (hnone b)⟩

/-- What every state of a server satisfies. -/
structure Inv (s : Server W) : Prop where
  partitioned : s.Partitioned
  ovmap : s.ovmap = []

theorem Inv.congr {s' : Server W} (h : s.Inv) (hw : s'.waitingSockets = s.waitingSockets)
    (hp : s'.pendingSockets = s.pendingSockets) (ha : s'.activeSockets = s.activeSockets)
    (hs : s'.sockets = s.sockets) (hk : s'.kernel = s.kernel) (ho : s'.ovmap = s.ovmap) : s'.Inv where
  partitioned := by
    unfold Partitioned
    rw [hp]
    exact h.partitioned.congr hw ha hs fun _ ↦ by rw [hk]
  ovmap := ho.trans h.ovmap

/-- `ConnectNamedPipe` returns zero in this step. -/
def Label.ConnectsReturnZero : Label W → Prop
  | .pass i => i.ConnectsReturnZero
  | .create .. | .close => True

theorem Inv.connected {i : PassInput W} (h : s.Inv) (hzero : i.ConnectsReturnZero) :
    (s.connected i).Inv where
  partitioned := Books.connectPhase h.partitioned hzero h.ovmap
  ovmap := (connectPhase_advances hzero h.ovmap).ovmap.trans h.ovmap

theorem Inv.offered {i : PassInput W} (h : s.Inv) (hzero : i.ConnectsReturnZero) :
    (s.offered i).Inv where
  partitioned := Books.acceptPhase (h.connected hzero).partitioned _ _
  ovmap := (acceptPhase_advances _ _ _).ovmap.trans (h.connected hzero).ovmap

theorem Inv.verified {i : PassInput W} (h : s.Inv) (hzero : i.ConnectsReturnZero) :
    (s.verified i).Inv where
  partitioned := Books.verifyPhase (h.offered hzero).partitioned _ _
  ovmap := (verifyPhase_advances _ _ _).ovmap.trans (h.offered hzero).ovmap

theorem Inv.close (h : s.Inv) : s.close.Inv := ⟨Books.close h.partitioned, rfl⟩

theorem Inv.create (h : s.Inv) (path : List Char) (maxClients : ℕ) (replies : ℕ → Option HANDLE) :
    (s.create path maxClients replies).2.Inv ∧
      ∀ r ∈ spawnReleases replies winBacklogNum (s.prepare path maxClients), r.Inv := by
  have hclose : (s.prepare path maxClients).Inv := h.close.congr rfl rfl rfl rfl rfl rfl
  exact create_rule path maxClients replies
    (fun s hs ↦ Inv.close (hs.congr rfl rfl rfl rfl rfl rfl))
    (fun s a hs _ hnew ↦ ⟨Books.opened hs.partitioned hnew, hs.ovmap⟩)
    (fun s hs ↦ hs.congr rfl rfl rfl rfl rfl rfl) hclose

/-- A step keeps the invariant, also while it runs. -/
theorem Inv.step {t : Transition (Server W) (Label W)} (hs : t.src.step t.label = some t.dst)
    (hzero : t.label.ConnectsReturnZero) (h : t.src.Inv) :
    t.dst.Inv ∧ ∀ r ∈ t.src.releases t.label, r.Inv := by
  obtain ⟨s, l, s'⟩ := t
  have hstep : s.step l = some s' := hs
  rcases step_cases hstep h.ovmap with
    ⟨path, maxClients, replies, rfl, rfl⟩ | ⟨i, rfl, -, rfl⟩ | ⟨rfl, rfl⟩
  · obtain ⟨hlast, hall⟩ := h.create path maxClients replies
    exact ⟨hlast, forall_releases_create.2 ⟨h.close, hall, hlast⟩⟩
  · exact ⟨h.verified hzero,
      forall_releases_pass.2 ⟨h.connected hzero, h.offered hzero, h.verified hzero⟩⟩
  · exact ⟨h.close, List.forall_mem_singleton.2 h.close⟩

theorem Inv.start : (start : Server W).Inv where
  partitioned := ⟨⟨List.nodup_nil, fun _ ↦ ⟨nofun, nofun⟩⟩, nofun⟩
  ovmap := rfl

/-- **The handle lists partition the open pipe instances.**  Whenever the lock of a
server is released, in any run, the waiting, pending and active handles are exactly
the open ones, no handle is in two places or twice in one, and all of them are
listed in `sockets`; and a server whose watcher runs can make its next pass. -/
theorem handles_partitioned {ts : List (Transition (Server W) (Label W))}
    (hrun : Run step start ts s) (hzero : ∀ t ∈ ts, t.label.ConnectsReturnZero) :
    s.Partitioned ∧ (∀ t ∈ ts, ∀ r ∈ t.src.releases t.label, r.Partitioned) ∧
      (s.running = true → ∀ i, s.pass i = some (s.verified i)) := by
  obtain ⟨hlast, hall⟩ := hrun.invariant (fun _ hs hz h ↦ (Inv.step hs hz h).1) Inv.start hzero
  refine ⟨hlast.partitioned, ?_, fun hgo i ↦ (pass_eq_some_iff hlast.ovmap).2 ⟨hgo, rfl⟩⟩
  intro t ht r hr
  exact ((Inv.step (hrun.step_of_mem ht) (hzero t ht) (hall t ht).1).2 r hr).partitioned

/-! ## A small server -/

/-- `create` with the handles 1 to 8. -/
def createEight (maxClients : ℕ) : Label Unit := .create ['p'] maxClients fun n ↦ some (8 - n)

/-- A pass that finds clients on the handles `found` and accepts all of them.  If an
instance is opened, it is `fresh`.  All sockets are good, or none is. -/
def acceptAll (found : List HANDLE) (fresh : HANDLE) (good : Bool) : Label Unit :=
  .pass {
    signalled := none
    connect := fun h ↦ ⟨false, if h ∈ found then errorPipeConnected else errorIoPending⟩
    onAccept := true
    offer := fun _ ↦ ⟨(), true, some fresh⟩
    expired := fun _ ↦ false
    good := fun _ ↦ good }

/-- A pass that finds clients on the handles `found` and refuses all of them. -/
def refuseAll (found : List HANDLE) : Label Unit :=
  .pass {
    signalled := none
    connect := fun h ↦ ⟨false, if h ∈ found then errorPipeConnected else errorIoPending⟩
    onAccept := true
    offer := fun _ ↦ ⟨(), false, none⟩
    expired := fun _ ↦ false
    good := fun _ ↦ true }

@[simp] theorem createEight_zero (m : ℕ) : (createEight m).ConnectsReturnZero := trivial

@[simp] theorem close_zero : (Label.close : Label Unit).ConnectsReturnZero := trivial

@[simp] theorem acceptAll_zero (found : List HANDLE) (fresh : HANDLE) (good : Bool) :
    (acceptAll found fresh good).ConnectsReturnZero := fun _ ↦ rfl

@[simp] theorem refuseAll_zero (found : List HANDLE) : (refuseAll found).ConnectsReturnZero :=
  fun _ ↦ rfl

/-- Two clients come one after the other, and both leave. -/
theorem handles_partitioned_two : ∃ ts s, Run step (start : Server Unit) ts s ∧
    s.waitingSockets = [3, 4, 5, 6, 7, 8, 9, 1] ∧ s.kernel.closed = [2] ∧ s.Partitioned := by
  obtain ⟨ts, s, hrun, hzero, hwaiting, hclosed⟩ := Run.exists_of_labels step start
    [createEight 8, acceptAll [1] 9 true, acceptAll [2] 9 true, acceptAll [] 9 false]
    Label.ConnectsReturnZero
    (fun _ s ↦ s.waitingSockets = [3, 4, 5, 6, 7, 8, 9, 1] ∧ s.kernel.closed = [2])
    (by simp) ⟨_, rfl, by decide⟩
  exact ⟨ts, s, hrun, hwaiting, hclosed, (handles_partitioned hrun hzero).1⟩

end Server

end Datapath.Windows
