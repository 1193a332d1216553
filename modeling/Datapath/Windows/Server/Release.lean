import Datapath.Windows.Server.Phases

/-!
# What a closed server has left

A pipe instance that is open is listed in `sockets`, whatever `ConnectNamedPipe` answers
and even if the lists do not agree with each other.  So `close`, which closes what is
listed, closes everything, and `create` does so too when it fails.
-/

namespace Datapath.Windows

open Datapath.Lib

namespace Server

variable {W : Type*} {s s' : Server W}

/-- Every open instance is in `sockets`. -/
def Listed (s : Server W) : Prop := ∀ h, s.kernel.Open h → h ∈ s.sockets

/-- No instance that the server has opened is open, nothing is listed, and no watcher
runs. -/
structure Released (s : Server W) : Prop where
  none_open : ∀ h, ¬ s.kernel.Open h
  sockets : s.sockets = []
  waitingSockets : s.waitingSockets = []
  pendingSockets : s.pendingSockets = []
  activeSockets : s.activeSockets = []
  running : s.running = false

/-! ## What keeps the instances listed -/

theorem Listed.congr (h : s.Listed) (hsockets : s'.sockets = s.sockets)
    (hopen : ∀ b, s'.kernel.Open b → s.kernel.Open b) : s'.Listed := by
  intro b hb
  rw [hsockets]
  exact h b (hopen b hb)

theorem Listed.opened (h : s.Listed) (a : HANDLE) : (s.opened a).Listed := by
  intro b hb
  show b ∈ s.sockets ++ [a]
  rcases open_opened.1 hb with rfl | hb
  · exact List.mem_append_right _ List.mem_cons_self
  · exact List.mem_append_left _ (h b hb)

/-- **`close` releases everything.** -/
theorem Listed.close (h : s.Listed) : s.close.Released where
  none_open b hb := by
    obtain ⟨hout, hopen⟩ := open_foldl_kill.1 hb
    exact hout (h b hopen)
  sockets := rfl
  waitingSockets := rfl
  pendingSockets := rfl
  activeSockets := rfl
  running := rfl

theorem Released.listed (h : s.Released) : s.Listed := fun b hb ↦ absurd hb (h.none_open b)

/-! ## The phases of a pass -/

theorem Listed.waitPhase (h : s.Listed) {signalled : Option HANDLE}
    (hs : s.waitPhase signalled = some s') : s'.Listed := by
  rcases waitPhase_cases hs with rfl | ⟨a, rfl⟩
  · exact h
  · exact h.congr rfl fun _ hb ↦ hb

theorem Listed.connectPhase (h : s.Listed) (connect : HANDLE → ConnectReply) :
    (s.connectPhase connect).Listed :=
  have hlooks := connectPhase_looks connect s
  h.congr hlooks.sockets fun b ↦ (hlooks.isOpen b).1

theorem Listed.restock (h : s.Listed) (reply : Option HANDLE) : (restock reply s).Listed := by
  rcases restock_cases reply s with ⟨hr, -⟩ | hr | ⟨a, -, -, -, hr⟩
  · rw [hr]
    exact h
  · rw [hr]
    exact h.congr rfl fun _ hb ↦ hb
  · rw [hr]
    exact h.opened a

theorem Listed.settle (h : s.Listed) (offer : Offer W) (a : HANDLE) : (s.settle offer a).Listed := by
  unfold Server.settle
  split
  · apply Listed.restock
    exact h.congr rfl fun _ hb ↦ hb
  · exact h.congr rfl fun _ ↦ Kernel.open_disconnectNamedPipe.1

theorem Listed.acceptPhase (h : s.Listed) (onAccept : Bool) (offer : HANDLE → Offer W) :
    (s.acceptPhase onAccept offer).Listed := by
  cases onAccept with
  | false => exact h
  | true =>
      rw [acceptPhase_eq]
      have hall : (s.settleAll offer s.pendingSockets).Listed :=
        foldl_rule (I := fun _ (s : Server W) ↦ s.Listed) (fun a _ _ hl ↦ hl.settle (offer a) a) h
      exact hall.congr rfl fun _ hb ↦ hb

theorem Listed.verifyPhase (h : s.Listed) (expired good : W → Bool) :
    (s.verifyPhase expired good).Listed := by
  have hall : (s.activeSockets.foldl (verifyOne expired good) (s, [])).1.Listed := by
    apply foldl_rule (I := fun _ (st : Server W × List HANDLE) ↦ st.1.Listed) ?_ h
    rintro e - ⟨s', toKill⟩ hs'
    rw [verifyOne_eq]
    split
    · rcases retire_cases e.1 s' toKill with ⟨-, hr⟩ | ⟨-, hr⟩
      · rw [hr]
        exact Listed.congr hs' rfl fun _ hb ↦ hb
      · rw [hr]
        exact Listed.congr hs' rfl fun _ hb ↦ (open_kill.1 hb).2
    · exact hs'
  exact hall.congr rfl fun _ hb ↦ hb

theorem Listed.pass (h : s.Listed) {i : PassInput W} (hs : s.pass i = some s') : s'.Listed := by
  obtain ⟨-, hs⟩ := Option.ite_none_right_eq_some.1 hs
  obtain ⟨s₁, hwait, rfl⟩ := Option.map_eq_some_iff.1 hs
  exact (((h.waitPhase hwait).connectPhase _).acceptPhase _ _).verifyPhase _ _

/-! ## Creation -/

theorem Listed.prepare (h : s.Listed) (path : List Char) (maxClients : ℕ) :
    (s.prepare path maxClients).Listed :=
  h.close.listed.congr rfl fun _ hb ↦ hb

theorem Listed.create (h : s.Listed) (path : List Char) (maxClients : ℕ) (replies : ℕ → Option HANDLE) :
    (s.create path maxClients replies).2.Listed := by
  refine (create_rule path maxClients replies (fun _ hs ↦ ?_) (fun _ a hs _ _ ↦ hs.opened a)
    (fun _ hs ↦ hs.congr rfl fun _ hb ↦ hb) (h.prepare path maxClients)).1
  exact (Listed.close (hs.congr rfl fun _ hb ↦ hb)).listed

/-- The loop of `create` ends without success where an instance could not be opened. -/
theorem spawn_released (replies : ℕ → Option HANDLE) {n : ℕ} : ∀ {s : Server W}, s.Listed →
    (spawn replies n s).1 ≠ .success → (spawn replies n s).2.Released := by
  induction n with
  | zero =>
      intro s _ hne
      exact absurd rfl hne
  | succ n ih =>
      intro s h hne
      rcases s.createSocket_cases (replies n) with hc | ⟨a, hvalid, -, hc⟩
      · rw [spawn, hc]
        exact Listed.close (h.congr rfl fun _ hb ↦ hb)
      · rw [spawn, hc] at hne ⊢
        simp only [hvalid, if_false] at hne ⊢
        exact ih (h.opened a) hne

theorem Listed.create_released (h : s.Listed) (path : List Char) (maxClients : ℕ)
    (replies : ℕ → Option HANDLE) (hfailed : (s.create path maxClients replies).1 = .criticalFailure) :
    (s.create path maxClients replies).2.Released := by
  rcases s.create_cases path maxClients replies with ⟨s', -, hcreate⟩ | hcreate
  · rw [hcreate] at hfailed
    cases hfailed
  · rw [hcreate] at hfailed ⊢
    refine spawn_released replies (h.prepare path maxClients) ?_
    rw [hfailed]
    nofun

/-! ## Runs -/

theorem Listed.step (h : s.Listed) {l : Label W} (hs : s.step l = some s') : s'.Listed := by
  cases l with
  | create path maxClients replies =>
      cases hs
      exact h.create path maxClients replies
  | pass i => exact h.pass hs
  | close =>
      cases hs
      exact h.close.listed

/-- **No pipe instance leaks.**  In every run, whatever the system calls answer, the
server that has been closed has no instance open, no handle listed and no watcher
running, and neither has one whose creation has failed. -/
theorem none_left_open {ts : List (Transition (Server W) (Label W))} (hrun : Run step start ts s) :
    s.close.Released ∧ ∀ path maxClients replies,
      (s.create path maxClients replies).1 = .criticalFailure →
        (s.create path maxClients replies).2.Released := by
  have hlisted : s.Listed := (hrun.invariant (I := Listed) (C := fun _ ↦ True)
    (fun _ hs _ h ↦ h.step hs) nofun fun _ _ ↦ trivial).1
  exact ⟨hlisted.close, hlisted.create_released⟩

/-- Instances for a name, the third of which cannot be opened. -/
def thirdFails (n : ℕ) : Option HANDLE := if n = 5 then none else some (20 - n)

/-- A server is closed, or created again without success. -/
theorem none_left_open_three : ∃ ts s, Run step (start : Server Unit) ts s ∧ s.kernel.Open 1 ∧
    s.close.Released ∧ (s.create ['q'] 8 thirdFails).1 = .criticalFailure ∧
      (s.create ['q'] 8 thirdFails).2.Released := by
  obtain ⟨ts, s, hrun, hopen, hfailed⟩ := Run.exists_of_trace step (start : Server Unit)
    [.create ['p'] 8 fun n ↦ some (8 - n)]
    (fun _ s ↦ s.kernel.Open 1 ∧ (s.create ['q'] 8 thirdFails).1 = .criticalFailure)
    ⟨_, rfl, by decide⟩
  obtain ⟨hclose, hcreate⟩ := none_left_open hrun
  exact ⟨ts, s, hrun, hopen, hclose, hfailed, hcreate ['q'] 8 thirdFails hfailed⟩

end Server

end Datapath.Windows
