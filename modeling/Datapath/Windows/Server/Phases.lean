import Datapath.Windows.Server.Watcher

/-!
# What the phases of a pass do

One lemma for each operation of the server, so that no later proof has to unfold
it.  Of `ConnectNamedPipe` it is assumed here that it returns zero, but for what has a
heading of its own.
-/

namespace Datapath.Windows

open Datapath.Lib

/-- `ConnectNamedPipe` returns zero, as it does for overlapped instances. -/
def PassInput.ConnectsReturnZero {W : Type*} (i : PassInput W) : Prop :=
  ∀ h, (i.connect h).suc = false

namespace Server

variable {W : Type*} {s : Server W}

/-! ## Opening and closing instances -/

/-- `_create_socket` either fails or opens a handle that was not open. -/
theorem createSocket_cases (reply : Option HANDLE) (s : Server W) :
    s.createSocket reply =
      (invalidHandleValue, { s with created := s.created ++ [invalidHandleValue] }) ∨
    ∃ h, h ≠ invalidHandleValue ∧ ¬ s.kernel.Open h ∧ s.createSocket reply = (h, { s with
      kernel := { s.kernel with pipes := Function.update s.kernel.pipes h (some .listening) }
      created := s.created ++ [h] }) := by
  unfold createSocket
  cases makePipePath s.path with
  | none => exact .inl rfl
  | some path =>
      rcases s.kernel.createNamedPipe_cases reply with hk | ⟨h, hne, hnew, hk⟩
      · rw [hk]
        exact .inl rfl
      · rw [hk]
        exact .inr ⟨h, hne, hnew, rfl⟩

/-- The server that has just opened the handle `h`. -/
def opened (s : Server W) (h : HANDLE) : Server W :=
  enlist h { s with
    kernel := { s.kernel with pipes := Function.update s.kernel.pipes h (some .listening) }
    created := s.created ++ [h] }

/-- Restocking does nothing, or fails to open an instance, or opens one. -/
theorem restock_cases (reply : Option HANDLE) (s : Server W) :
    (restock reply s = s ∧ ¬ (s.waitingSockets.length + s.pendingSockets.length < winBacklogNum ∧
      s.sockets.length ≤ s.maxClients ∧ 0 < s.maxClients)) ∨
    restock reply s = { s with created := s.created ++ [invalidHandleValue] } ∨
    ∃ h, h ≠ invalidHandleValue ∧ ¬ s.kernel.Open h ∧ s.sockets.length ≤ s.maxClients ∧
      restock reply s = s.opened h := by
  unfold restock
  split
  case isFalse hfull => exact .inl ⟨rfl, fun hc ↦ hfull hc.1⟩
  case isTrue =>
    split
    case isFalse hlimit => exact .inl ⟨rfl, fun hc ↦ hlimit hc.2⟩
    case isTrue hlimit =>
      right
      rcases s.createSocket_cases reply with hc | ⟨h, hne, hnew, hc⟩
      · rw [hc]
        exact .inl rfl
      · refine .inr ⟨h, hne, hnew, hlimit.1, ?_⟩
        rw [hc]
        exact if_pos hne

theorem open_opened {h b : HANDLE} : (s.opened h).kernel.Open b ↔ b = h ∨ s.kernel.Open b :=
  Kernel.open_update

@[simp] theorem open_kill {kernel : Kernel} {h b : HANDLE} :
    (kill kernel h).Open b ↔ b ≠ h ∧ kernel.Open b := by
  simp [kill]

@[simp] theorem closed_kill {kernel : Kernel} {h : HANDLE} :
    (kill kernel h).closed = kernel.closed ++ [h] := by
  simp [kill, Kernel.closeHandle]

/-- Killing a list of handles leaves the others open. -/
theorem open_foldl_kill {l : List HANDLE} :
    ∀ {kernel : Kernel} {b : HANDLE}, (l.foldl kill kernel).Open b ↔ b ∉ l ∧ kernel.Open b := by
  induction l with
  | nil => simp
  | cons h rest ih =>
      intro kernel b
      rw [List.foldl_cons, ih, open_kill, List.mem_cons, not_or]
      tauto

theorem closed_foldl_kill {l : List HANDLE} :
    ∀ {kernel : Kernel}, (l.foldl kill kernel).closed = kernel.closed ++ l := by
  induction l with
  | nil => simp
  | cons h rest ih =>
      intro kernel
      rw [List.foldl_cons, ih, closed_kill, List.append_assoc, List.singleton_append]

/-! ## The connect phase -/

/-- A client is found on the instance `h`. -/
def Found (connect : HANDLE → ConnectReply) (h : HANDLE) : Bool :=
  (connect h).lastError = errorPipeConnected

theorem connect_fold {connect : HANDLE → ConnectReply} (hzero : ∀ h, (connect h).suc = false)
    (l : List HANDLE) : ∀ (s : Server W) (toKill : List HANDLE), s.ovmap = [] →
      ∃ itr captured, l.foldl (connectOne connect) (s, toKill) = ({ s with
        itr, captured
        kernel := l.foldl Kernel.connectNamedPipe s.kernel
        pendingSockets := s.pendingSockets ++ l.filter (Found connect) },
        toKill ++ l.filter (Found connect)) := by
  induction l with
  | nil =>
      intro s toKill _
      exact ⟨s.itr, s.captured, by simp⟩
  | cons h rest ih =>
      intro s toKill hov
      rw [List.foldl_cons, connectOne]
      simp only [hov, List.not_mem_nil, if_false, hzero, Bool.false_eq_true]
      by_cases hfound : (connect h).lastError = errorPipeConnected
      · rw [if_pos hfound]
        obtain ⟨itr, captured, hrest⟩ := ih { s with
          itr := some h, captured := h, kernel := s.kernel.connectNamedPipe h
          pendingSockets := s.pendingSockets ++ [h] } (toKill ++ [h]) hov
        refine ⟨itr, captured, ?_⟩
        simp only [hov] at hrest
        rw [hrest, List.filter_cons_of_pos (by simpa [Found] using hfound)]
        simp
      · rw [if_neg hfound]
        obtain ⟨itr, captured, hrest⟩ := ih { s with
          itr := some h, captured := h, kernel := s.kernel.connectNamedPipe h } toKill hov
        refine ⟨itr, captured, ?_⟩
        simp only [hov] at hrest
        rw [hrest, List.filter_cons_of_neg (by simpa [Found] using hfound)]
        rfl

/-- **The connect phase.**  The waiting instances on which a client is found become
pending ones, in order. -/
theorem connectPhase_eq {connect : HANDLE → ConnectReply} (hzero : ∀ h, (connect h).suc = false)
    (hov : s.ovmap = []) : ∃ captured, s.connectPhase connect = { s with
      captured
      itr := none
      kernel := s.waitingSockets.foldl Kernel.connectNamedPipe s.kernel
      waitingSockets := s.waitingSockets.filter fun h ↦ !Found connect h
      pendingSockets := s.pendingSockets ++ s.waitingSockets.filter (Found connect) } := by
  obtain ⟨itr, captured, hfold⟩ := connect_fold hzero s.waitingSockets s [] hov
  refine ⟨captured, ?_⟩
  have hkept : s.waitingSockets.filter (· ∉ s.waitingSockets.filter (Found connect)) =
      s.waitingSockets.filter fun h ↦ !Found connect h := by
    apply List.filter_congr
    intro h hh
    simp [List.mem_filter, hh]
  rw [connectPhase, hfold]
  simp only [List.nil_append, hkept]

theorem open_foldl_connectNamedPipe {l : List HANDLE} {kernel : Kernel} {b : HANDLE} :
    (l.foldl Kernel.connectNamedPipe kernel).Open b ↔ kernel.Open b :=
  iff_of_eq (foldl_keeps (Kernel.Open · b) (fun _ _ ↦ propext Kernel.open_connectNamedPipe) l kernel)

theorem closed_foldl_connectNamedPipe {l : List HANDLE} {kernel : Kernel} :
    (l.foldl Kernel.connectNamedPipe kernel).closed = kernel.closed :=
  foldl_keeps Kernel.closed (fun _ _ ↦ Kernel.closed_connectNamedPipe) l kernel

/-! ## The accept phase -/

/-- `pending_sockets` is not changed by what follows an offer. -/
theorem pendingSockets_settle (offer : Offer W) (h : HANDLE) (s : Server W) :
    (s.settle offer h).pendingSockets = s.pendingSockets := by
  unfold settle
  split
  · rcases restock_cases offer.created { s with
      onAcceptCalls := s.onAcceptCalls ++ [h]
      activeSockets := OrderedMap.insert h offer.sock s.activeSockets } with
      ⟨hr, -⟩ | hr | ⟨b, -, -, -, hr⟩
    · rw [hr]
    · rw [hr]
    · rw [hr]
      rfl
  · rfl

/-- What follows the offers of a list of handles, one after the other. -/
def settleAll (offer : HANDLE → Offer W) (l : List HANDLE) (s : Server W) : Server W :=
  l.foldl (fun s h ↦ s.settle (offer h) h) s

theorem pendingSockets_settleAll (offer : HANDLE → Offer W) (l : List HANDLE) (s : Server W) :
    (s.settleAll offer l).pendingSockets = s.pendingSockets :=
  foldl_keeps pendingSockets (fun s' h ↦ pendingSockets_settle (offer h) h s') l s

theorem accept_fold (offer : HANDLE → Offer W) (l : List HANDLE) : ∀ (s : Server W) (toKill),
    l.foldl (acceptOne offer) (s, toKill) = (s.settleAll offer l, toKill ++ l) := by
  induction l with
  | nil =>
      intro s toKill
      rw [List.append_nil]
      rfl
  | cons h rest ih =>
      intro s toKill
      rw [List.foldl_cons, acceptOne, ih, List.append_assoc]
      rfl

/-- **The accept phase.**  With a listener, every pending client is offered and no
one stays pending. -/
theorem acceptPhase_eq (offer : HANDLE → Offer W) (s : Server W) :
    s.acceptPhase true offer = { s.settleAll offer s.pendingSockets with pendingSockets := [] } := by
  rw [acceptPhase, if_pos rfl, accept_fold, List.nil_append]
  simp only [pendingSockets_settleAll]
  have hnone : s.pendingSockets.filter (· ∉ s.pendingSockets) = [] := by simp
  rw [hnone]

/-! ## The verify phase -/

/-- The connection of an active entry is dead. -/
def Dead (expired good : W → Bool) (e : HANDLE × W) : Bool := expired e.2 || !good e.2

theorem verifyOne_eq (expired good : W → Bool) (s : Server W) (toKill : List HANDLE)
    (e : HANDLE × W) : verifyOne expired good (s, toKill) e =
      if Dead expired good e then retire e.1 s toKill else (s, toKill) := by
  obtain ⟨h, w⟩ := e
  by_cases hexpired : expired w = true
  · simp [verifyOne, Dead, hexpired]
  · simp [verifyOne, Dead, hexpired]

/-- A dead connection goes back to the waiting ones while there is room, and is
closed when there is none. -/
theorem retire_cases (h : HANDLE) (s : Server W) (toKill : List HANDLE) :
    (s.waitingSockets.length + s.pendingSockets.length < winBacklogNum ∧
      retire h s toKill = ({ s with
        waitingSockets := s.waitingSockets ++ [h]
        activeSockets := OrderedMap.erase h s.activeSockets }, toKill)) ∨
    (winBacklogNum ≤ s.waitingSockets.length + s.pendingSockets.length ∧
      retire h s toKill = ({ s with
        kernel := kill s.kernel h
        activeSockets := OrderedMap.erase h s.activeSockets }, toKill ++ [h])) := by
  unfold retire
  split
  case isTrue hroom => exact .inl ⟨hroom, rfl⟩
  case isFalse hfull => exact .inr ⟨Nat.le_of_not_lt hfull, rfl⟩

/-- `sockets` and `created` are not touched by the verify phase. -/
theorem verify_lists (expired good : W → Bool) (entries : OrderedMap HANDLE W) (s : Server W) (toKill : List HANDLE) :
    (entries.foldl (verifyOne expired good) (s, toKill)).1.sockets = s.sockets ∧
      (entries.foldl (verifyOne expired good) (s, toKill)).1.created = s.created := by
  apply foldl_rule (I := fun _ (st : Server W × List HANDLE) ↦
    st.1.sockets = s.sockets ∧ st.1.created = s.created) ?_ ⟨rfl, rfl⟩
  rintro e - ⟨s', toKill'⟩ hs'
  rw [verifyOne_eq]
  split
  · rcases retire_cases e.1 s' toKill' with ⟨-, hr⟩ | ⟨-, hr⟩
    · rw [hr]
      exact hs'
    · rw [hr]
      exact hs'
  · exact hs'

theorem verified_lists (i : PassInput W) (s : Server W) :
    (s.verified i).sockets = (s.offered i).sockets ∧
      (s.verified i).created = (s.offered i).created :=
  verify_lists i.expired i.good (s.offered i).activeSockets (s.offered i) []

/-! ## What a pass leaves alone -/

/-- What a pass does not change, and what it only adds to. -/
structure Advances (s s' : Server W) : Prop where
  maxClients : s'.maxClients = s.maxClients
  running : s'.running = s.running
  ovmap : s'.ovmap = s.ovmap
  sockets : s.sockets <+: s'.sockets
  created : s.created <+: s'.created
  closed : s.kernel.closed <+: s'.kernel.closed

theorem Advances.refl (s : Server W) : Advances s s :=
  ⟨rfl, rfl, rfl, List.prefix_refl _, List.prefix_refl _, List.prefix_refl _⟩

theorem Advances.trans {s s' s'' : Server W} (h : Advances s s') (h' : Advances s' s'') :
    Advances s s'' :=
  ⟨h'.maxClients.trans h.maxClients, h'.running.trans h.running, h'.ovmap.trans h.ovmap,
    h.sockets.trans h'.sockets, h.created.trans h'.created, h.closed.trans h'.closed⟩

theorem connectPhase_advances {connect : HANDLE → ConnectReply}
    (hzero : ∀ h, (connect h).suc = false) (hov : s.ovmap = []) :
    Advances s (s.connectPhase connect) := by
  obtain ⟨captured, heq⟩ := connectPhase_eq hzero hov
  rw [heq]
  refine ⟨rfl, rfl, rfl, List.prefix_refl _, List.prefix_refl _, [], ?_⟩
  rw [List.append_nil, closed_foldl_connectNamedPipe]

theorem restock_advances (reply : Option HANDLE) (s : Server W) : Advances s (restock reply s) := by
  rcases restock_cases reply s with ⟨hr, -⟩ | hr | ⟨h, -, -, -, hr⟩
  · rw [hr]
    exact .refl s
  · rw [hr]
    exact ⟨rfl, rfl, rfl, List.prefix_refl _, List.prefix_append _ _, List.prefix_refl _⟩
  · rw [hr]
    exact ⟨rfl, rfl, rfl, List.prefix_append _ _, List.prefix_append _ _, List.prefix_refl _⟩

theorem settle_advances (offer : Offer W) (h : HANDLE) (s : Server W) :
    Advances s (s.settle offer h) := by
  unfold settle
  split
  · obtain ⟨hm, hr, ho, hs, hc, hclosed⟩ := restock_advances offer.created { s with
      onAcceptCalls := s.onAcceptCalls ++ [h]
      activeSockets := OrderedMap.insert h offer.sock s.activeSockets }
    exact ⟨hm, hr, ho, hs, hc, hclosed⟩
  · refine ⟨rfl, rfl, rfl, List.prefix_refl _, List.prefix_refl _, [], ?_⟩
    rw [List.append_nil, Kernel.closed_disconnectNamedPipe]

theorem settleAll_advances (offer : HANDLE → Offer W) (l : List HANDLE) (s : Server W) :
    Advances s (s.settleAll offer l) :=
  foldl_rule (I := fun _ s' ↦ Advances s s')
    (fun h _ s' hs' ↦ hs'.trans (settle_advances (offer h) h s')) (.refl s)

theorem acceptPhase_advances (onAccept : Bool) (offer : HANDLE → Offer W) (s : Server W) :
    Advances s (s.acceptPhase onAccept offer) := by
  cases onAccept with
  | false => exact .refl s
  | true =>
      rw [acceptPhase_eq]
      have hall := settleAll_advances offer s.pendingSockets s
      exact ⟨hall.maxClients, hall.running, hall.ovmap, hall.sockets, hall.created, hall.closed⟩

theorem verifyPhase_advances (expired good : W → Bool) (s : Server W) :
    Advances s (s.verifyPhase expired good) := by
  have hall : Advances s (s.activeSockets.foldl (verifyOne expired good) (s, [])).1 := by
    apply foldl_rule (I := fun _ (st : Server W × List HANDLE) ↦ Advances s st.1) ?_ (.refl s)
    rintro e - ⟨s', toKill⟩ hs'
    rw [verifyOne_eq]
    split
    · rcases retire_cases e.1 s' toKill with ⟨-, hr⟩ | ⟨-, hr⟩
      · rw [hr]
        exact ⟨hs'.maxClients, hs'.running, hs'.ovmap, hs'.sockets, hs'.created, hs'.closed⟩
      · rw [hr]
        refine ⟨hs'.maxClients, hs'.running, hs'.ovmap, hs'.sockets, hs'.created, ?_⟩
        exact hs'.closed.trans (closed_kill ▸ List.prefix_append _ _)
    · exact hs'
  exact ⟨hall.maxClients, hall.running, hall.ovmap, hall.sockets, hall.created, hall.closed⟩

theorem connected_advances {i : PassInput W} (hzero : i.ConnectsReturnZero) (hov : s.ovmap = []) :
    Advances s (s.connected i) := connectPhase_advances hzero hov

theorem offered_advances {i : PassInput W} (hzero : i.ConnectsReturnZero) (hov : s.ovmap = []) :
    Advances s (s.offered i) :=
  (connected_advances hzero hov).trans (acceptPhase_advances i.onAccept i.offer (s.connected i))

theorem verified_advances {i : PassInput W} (hzero : i.ConnectsReturnZero) (hov : s.ovmap = []) :
    Advances s (s.verified i) :=
  (offered_advances hzero hov).trans (verifyPhase_advances i.expired i.good (s.offered i))

/-- With nothing watched, a pass of a running server is its three phases. -/
theorem pass_eq_some_iff {i : PassInput W} {s' : Server W} (hov : s.ovmap = []) :
    s.pass i = some s' ↔ s.running = true ∧ s.verified i = s' := by
  have hwait : s.waitPhase i.signalled = some s := by
    unfold waitPhase
    cases i.signalled with
    | none => rfl
    | some h => exact if_neg (by rw [hov]; exact List.not_mem_nil)
  unfold pass
  rw [hwait]
  by_cases hrun : s.running = true
  · simp [hrun]
  · simp [hrun]

/-- **What a step can do** while nothing is watched. -/
theorem step_cases {l : Label W} {s' : Server W} (hs : s.step l = some s') (hov : s.ovmap = []) :
    (∃ path maxClients replies, l = .create path maxClients replies ∧
        s' = (s.create path maxClients replies).2) ∨
      (∃ i, l = .pass i ∧ s.running = true ∧ s' = s.verified i) ∨ (l = .close ∧ s' = s.close) := by
  cases l with
  | create path maxClients replies =>
      exact .inl ⟨path, maxClients, replies, rfl, (Option.some.inj hs).symm⟩
  | pass i =>
      obtain ⟨hrunning, hdst⟩ := (pass_eq_some_iff hov).1 hs
      exact .inr (.inl ⟨i, rfl, hrunning, hdst.symm⟩)
  | close => exact .inr (.inr ⟨rfl, (Option.some.inj hs).symm⟩)

/-! ## What holds whatever `ConnectNamedPipe` returns -/

/-- The waits change nothing, or call the callback of a watched handle. -/
theorem waitPhase_cases {signalled : Option HANDLE} {s' : Server W} (hs : s.waitPhase signalled = some s') :
    s' = s ∨ ∃ h, s' = { s with
      waitingSockets := s.waitingSockets.erase h
      pendingSockets := s.pendingSockets ++ [s.captured]
      ovmap := s.ovmap.filter (· ≠ s.captured) } := by
  unfold waitPhase at hs
  split at hs
  case h_1 =>
    cases hs
    exact .inl rfl
  case h_2 =>
    split at hs
    case isTrue =>
      unfold onWaitSuccess at hs
      split at hs
      case h_1 => cases hs
      case h_2 h _ =>
        cases hs
        exact .inr ⟨h, rfl⟩
    case isFalse =>
      cases hs
      exact .inl rfl

/-- Looking for clients opens and closes nothing, and does not end the watcher. -/
structure Looks (s s' : Server W) : Prop where
  running : s'.running = s.running
  sockets : s'.sockets = s.sockets
  isOpen : ∀ b, s'.kernel.Open b ↔ s.kernel.Open b

theorem connectOne_looks (connect : HANDLE → ConnectReply) (s : Server W) (toKill : List HANDLE)
    (h : HANDLE) : Looks s (connectOne connect (s, toKill) h).1 := by
  unfold connectOne
  dsimp only
  split
  case isTrue => exact ⟨rfl, rfl, fun _ ↦ .rfl⟩
  case isFalse =>
    split
    case isTrue => exact ⟨rfl, rfl, fun _ ↦ Kernel.open_connectNamedPipe⟩
    case isFalse =>
      split
      · exact ⟨rfl, rfl, fun _ ↦ Kernel.open_connectNamedPipe⟩
      · exact ⟨rfl, rfl, fun _ ↦ Kernel.open_connectNamedPipe⟩

theorem connectPhase_looks (connect : HANDLE → ConnectReply) (s : Server W) :
    Looks s (s.connectPhase connect) := by
  have hall : Looks s (s.waitingSockets.foldl (connectOne connect) (s, [])).1 := by
    refine foldl_rule (I := fun _ (st : Server W × List HANDLE) ↦ Looks s st.1) (fun h _ st hst ↦ ?_)
      ⟨rfl, rfl, fun _ ↦ .rfl⟩
    have hone := connectOne_looks connect st.1 st.2 h
    exact ⟨hone.running.trans hst.running, hone.sockets.trans hst.sockets,
      fun b ↦ (hone.isOpen b).trans (hst.isOpen b)⟩
  exact ⟨hall.running, hall.sockets, hall.isOpen⟩

/-- No phase of a pass starts the watcher or ends it. -/
theorem pass_running {i : PassInput W} {s' : Server W} (hs : s.pass i = some s') :
    s'.running = s.running := by
  obtain ⟨-, hs⟩ := Option.ite_none_right_eq_some.1 hs
  obtain ⟨waited, hwait, rfl⟩ := Option.map_eq_some_iff.1 hs
  have hwaited : waited.running = s.running := by
    rcases waitPhase_cases hwait with rfl | ⟨h, rfl⟩
    · rfl
    · rfl
  have hconnected : (waited.connected i).running = waited.running :=
    (connectPhase_looks i.connect waited).running
  have hadvances := (acceptPhase_advances i.onAccept i.offer (waited.connected i)).trans
    (verifyPhase_advances i.expired i.good (waited.offered i))
  exact hadvances.running.trans (hconnected.trans hwaited)

/-! ## Where the lock is released -/

theorem forall_releases_pass {P : Server W → Prop} {i : PassInput W} :
    (∀ r ∈ s.releases (.pass i), P r) ↔ P (s.connected i) ∧ P (s.offered i) ∧ P (s.verified i) := by
  rw [releases, List.forall_mem_cons, List.forall_mem_cons, List.forall_mem_singleton]

theorem forall_releases_create {P : Server W → Prop} {path : List Char} {maxClients : ℕ}
    {replies : ℕ → Option HANDLE} :
    (∀ r ∈ s.releases (.create path maxClients replies), P r) ↔
      P s.close ∧ (∀ r ∈ spawnReleases replies winBacklogNum (s.prepare path maxClients), P r) ∧
        P (s.create path maxClients replies).2 := by
  rw [releases, List.forall_mem_cons, List.forall_mem_append, List.forall_mem_singleton]

/-! ## Creation -/

/-- **The rule of `create`'s loop.**  What opening an instance keeps, and closing the
server after a failure, holds whenever the loop releases the lock. -/
theorem spawn_rule {P : Server W → Prop} (replies : ℕ → Option HANDLE)
    (hfail : ∀ s, P s → P (close { s with created := s.created ++ [invalidHandleValue] }))
    (hopen : ∀ s h, P s → h ≠ invalidHandleValue → ¬ s.kernel.Open h → P (s.opened h)) :
    ∀ {n : ℕ} {s : Server W}, P s →
      P (spawn replies n s).2 ∧ ∀ r ∈ spawnReleases replies n s, P r := by
  intro n
  induction n with
  | zero =>
      intro s h
      exact ⟨h, nofun⟩
  | succ n ih =>
      intro s h
      rcases s.createSocket_cases (replies n) with hc | ⟨a, hne, hnew, hc⟩
      · rw [spawn, spawnReleases, hc]
        exact ⟨hfail s h, nofun⟩
      · rw [spawn, spawnReleases, hc]
        simp only [hne, if_false]
        obtain ⟨hlast, hall⟩ := ih (hopen s a h hne hnew)
        exact ⟨hlast, List.forall_mem_cons.2 ⟨hopen s a h hne hnew, hall⟩⟩

/-- The loop of `create` starts no watcher. -/
theorem spawn_running (path : List Char) (maxClients : ℕ) (replies : ℕ → Option HANDLE) (s : Server W) :
    (spawn replies winBacklogNum (s.prepare path maxClients)).2.running = false :=
  (spawn_rule (P := fun s : Server W ↦ s.running = false) replies (fun _ _ ↦ rfl)
    (fun _ _ h _ _ ↦ h) rfl).1

/-- `create` succeeds and starts the watcher, or ends as its loop does. -/
theorem create_cases (path : List Char) (maxClients : ℕ) (replies : ℕ → Option HANDLE)
    (s : Server W) :
    (∃ s', spawn replies winBacklogNum (s.prepare path maxClients) = (.success, s') ∧
      s.create path maxClients replies = (.success, { s' with running := true })) ∨
    s.create path maxClients replies = spawn replies winBacklogNum (s.prepare path maxClients) := by
  unfold create
  split
  case h_1 s' hspawn => exact .inl ⟨s', hspawn, rfl⟩
  case h_2 hspawn => exact .inr hspawn.symm

/-- The watcher runs if `create` has succeeded, and not otherwise. -/
theorem create_running (path : List Char) (maxClients : ℕ) (replies : ℕ → Option HANDLE)
    (s : Server W) : ((s.create path maxClients replies).1 = .success ∧
        (s.create path maxClients replies).2.running = true) ∨
      ((s.create path maxClients replies).1 ≠ .success ∧
        (s.create path maxClients replies).2.running = false) := by
  have hstopped := s.spawn_running path maxClients replies
  unfold create
  split
  case h_1 => exact .inl ⟨rfl, rfl⟩
  case h_2 hne hspawn =>
    rw [hspawn] at hstopped
    exact .inr ⟨hne, hstopped⟩

/-- **The rule of `create`.**  What its loop keeps and starting the watcher keeps as
well holds whenever the loop releases the lock, and at the end. -/
theorem create_rule {P : Server W → Prop} (path : List Char) (maxClients : ℕ)
    (replies : ℕ → Option HANDLE)
    (hfail : ∀ s, P s → P (close { s with created := s.created ++ [invalidHandleValue] }))
    (hopen : ∀ s h, P s → h ≠ invalidHandleValue → ¬ s.kernel.Open h → P (s.opened h))
    (hstarted : ∀ s, P s → P { s with running := true }) (h : P (s.prepare path maxClients)) :
    P (s.create path maxClients replies).2 ∧
      ∀ r ∈ spawnReleases replies winBacklogNum (s.prepare path maxClients), P r := by
  obtain ⟨hlast, hall⟩ := spawn_rule replies hfail hopen (n := winBacklogNum) h
  refine ⟨?_, hall⟩
  rcases s.create_cases path maxClients replies with ⟨s', hspawn, hcreate⟩ | hcreate
  · rw [hspawn] at hlast
    rw [hcreate]
    exact hstarted s' hlast
  · rw [hcreate]
    exact hlast

end Server

end Datapath.Windows
