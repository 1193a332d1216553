import Datapath.Windows.Server.Handles

/-!
# The backlog and the client limit

New instances are opened in one place only, after a client has been accepted, and
only if the waiting and the pending handles together are fewer than the backlog.
The handles that the accept phase is just going through are still pending then, so
a full backlog whose clients are all accepted in one pass is not restocked
(`stays_reachable`).

`max_clients` is compared with the number of instances, not of clients, and only
before a new one is opened.  How many clients there are is left to the listeners of
`on_accept` (`client_limit`).
-/

namespace Datapath.Windows

open Datapath.Lib

namespace Server

variable {W : Type*} {s : Server W} {expired good : W → Bool}

/-- The instances that a client can connect to, or has just connected to. -/
def backlog (s : Server W) : ℕ := s.waitingSockets.length + s.pendingSockets.length

/-! ## What the phases do to the backlog -/

theorem connected_backlog {i : PassInput W} (hzero : i.ConnectsReturnZero) (hov : s.ovmap = []) :
    (s.connected i).backlog = s.backlog := by
  obtain ⟨captured, heq⟩ := connectPhase_eq hzero hov
  have hsplit := (List.filter_append_perm (Found i.connect) s.waitingSockets).length_eq
  rw [List.length_append] at hsplit
  unfold Server.connected backlog
  rw [heq]
  simp only [List.length_append]
  omega

theorem connected_sockets {i : PassInput W} (hzero : i.ConnectsReturnZero) (hov : s.ovmap = []) :
    (s.connected i).sockets = s.sockets ∧ (s.connected i).activeSockets = s.activeSockets := by
  obtain ⟨captured, heq⟩ := connectPhase_eq hzero hov
  unfold Server.connected
  rw [heq]
  exact ⟨rfl, rfl⟩

theorem restock_waiting (reply : Option HANDLE) (s : Server W) :
    s.waitingSockets <+: (restock reply s).waitingSockets := by
  rcases restock_cases reply s with ⟨hr, -⟩ | hr | ⟨h, -, -, -, hr⟩
  · exact (congrArg waitingSockets hr).symm ▸ List.prefix_refl _
  · exact (congrArg waitingSockets hr).symm ▸ List.prefix_refl _
  · rw [hr]
    exact List.prefix_append _ _

/-- Waiting handles stay in the list while clients are offered. -/
theorem settle_waiting (offer : Offer W) (h : HANDLE) (s : Server W) :
    s.waitingSockets <+: (s.settle offer h).waitingSockets := by
  unfold settle
  split
  · exact restock_waiting offer.created { s with
      onAcceptCalls := s.onAcceptCalls ++ [h]
      activeSockets := OrderedMap.insert h offer.sock s.activeSockets }
  · exact List.prefix_append _ _

theorem settleAll_waiting (offer : HANDLE → Offer W) (l : List HANDLE) (s : Server W) :
    s.waitingSockets <+: (s.settleAll offer l).waitingSockets :=
  foldl_rule (I := fun _ (s' : Server W) ↦ s.waitingSockets <+: s'.waitingSockets)
    (fun h _ s' hs' ↦ hs'.trans (settle_waiting (offer h) h s')) (List.prefix_refl _)

/-- A client that is refused leaves a waiting handle. -/
theorem settleAll_refused {offer : HANDLE → Offer W} {l : List HANDLE} : ∀ {s : Server W},
    (s.settleAll offer l).waitingSockets = [] → ∀ h ∈ l, (offer h).accept = true := by
  induction l with
  | nil =>
      intro s _
      exact nofun
  | cons a rest ih =>
      intro s hnone
      have hstep : (s.settle (offer a) a).waitingSockets = [] :=
        List.prefix_nil.1 (hnone ▸ settleAll_waiting offer rest (s.settle (offer a) a))
      refine List.forall_mem_cons.2 ⟨?_, ih hnone⟩
      by_contra hrefused
      unfold settle at hstep
      rw [if_neg hrefused] at hstep
      exact absurd hstep (List.append_ne_nil_of_right_ne_nil _ (List.cons_ne_nil _ _))

/-- A full backlog of clients that are all accepted is not restocked. -/
theorem settleAll_full {offer : HANDLE → Offer W} {l : List HANDLE} : ∀ {s : Server W},
    winBacklogNum ≤ s.pendingSockets.length → (∀ h ∈ l, (offer h).accept = true) →
      (s.settleAll offer l).waitingSockets = s.waitingSockets ∧
        (s.settleAll offer l).sockets = s.sockets := by
  induction l with
  | nil =>
      intro s _ _
      exact ⟨rfl, rfl⟩
  | cons a rest ih =>
      intro s hfull haccept
      have hstep : s.settle (offer a) a = { s with
          onAcceptCalls := s.onAcceptCalls ++ [a]
          activeSockets := OrderedMap.insert a (offer a).sock s.activeSockets } := by
        unfold settle restock
        rw [if_pos (haccept a List.mem_cons_self), if_neg]
        exact Nat.not_lt.2 (Nat.le_trans hfull (Nat.le_add_left _ _))
      show ((s.settle (offer a) a).settleAll offer rest).waitingSockets = _ ∧
        ((s.settle (offer a) a).settleAll offer rest).sockets = _
      rw [hstep]
      exact ih hfull fun h hh ↦ haccept h (List.mem_cons_of_mem _ hh)

/-- With room in the backlog and below the limit, the first offer leaves a waiting
handle, if no attempt to open one fails. -/
theorem settleAll_room (offer : HANDLE → Offer W) (a : HANDLE) (rest : List HANDLE)
    (hroom : s.backlog < winBacklogNum) (hlimit : s.sockets.length ≤ s.maxClients)
    (hpos : 0 < s.maxClients)
    (hcreated : invalidHandleValue ∉ (s.settleAll offer (a :: rest)).created) :
    (s.settleAll offer (a :: rest)).waitingSockets ≠ [] := by
  intro hnone
  have hstep : (s.settle (offer a) a).waitingSockets = [] :=
    List.prefix_nil.1 (hnone ▸ settleAll_waiting offer rest (s.settle (offer a) a))
  have hgrows : (s.settle (offer a) a).created <+: (s.settleAll offer (a :: rest)).created :=
    (settleAll_advances offer rest (s.settle (offer a) a)).created
  unfold settle at hstep hgrows
  by_cases haccept : (offer a).accept = true
  · rw [if_pos haccept] at hstep hgrows
    rcases restock_cases (offer a).created { s with
      onAcceptCalls := s.onAcceptCalls ++ [a]
      activeSockets := OrderedMap.insert a (offer a).sock s.activeSockets } with
      ⟨-, hc⟩ | hr | ⟨h, -, -, -, hr⟩
    · exact hc ⟨hroom, hlimit, hpos⟩
    · rw [hr] at hgrows
      exact hcreated (hgrows.subset (List.mem_append_right _ (List.mem_singleton.2 rfl)))
    · rw [hr] at hstep
      exact absurd hstep (List.append_ne_nil_of_right_ne_nil _ (List.cons_ne_nil _ _))
  · rw [if_neg haccept] at hstep
    exact absurd hstep (List.append_ne_nil_of_right_ne_nil _ (List.cons_ne_nil _ _))

/-- The verify phase leaves no backlog only if it finds none and no dead connection. -/
theorem verify_backlog {entries : OrderedMap HANDLE W} :
    ∀ {s : Server W} {toKill : List HANDLE},
      (entries.foldl (verifyOne expired good) (s, toKill)).1.backlog = 0 ↔
        s.backlog = 0 ∧ entries.countP (Dead expired good) = 0 := by
  induction entries with
  | nil =>
      intro s toKill
      exact ⟨fun h ↦ ⟨h, rfl⟩, And.left⟩
  | cons e rest ih =>
      intro s toKill
      rw [List.foldl_cons, verifyOne_eq]
      by_cases hdead : Dead expired good e = true
      · rw [List.countP_cons_of_pos hdead, if_pos hdead]
        refine iff_of_false (fun h ↦ ?_) (fun h ↦ Nat.succ_ne_zero _ h.2)
        rcases retire_cases e.1 s toKill with ⟨-, hr⟩ | ⟨hfull, hr⟩
        · rw [hr, ih] at h
          have hback := h.1
          simp only [backlog, List.length_append, List.length_singleton] at hback
          omega
        · rw [hr, ih] at h
          have hback := h.1
          simp only [backlog] at hback
          rw [hback] at hfull
          exact absurd hfull (by decide)
      · rw [List.countP_cons_of_neg hdead, if_neg hdead, ih]

/-! ## Reachability -/

/-- Below the limit, a server has an instance that is waiting or pending. -/
def Reachable (s : Server W) : Prop :=
  0 < s.maxClients → s.sockets.length ≤ s.maxClients → 0 < s.backlog

instance (s : Server W) : Decidable s.Reachable :=
  inferInstanceAs (Decidable (0 < s.maxClients → s.sockets.length ≤ s.maxClients → 0 < s.backlog))

/-- In the accept phase of this pass nothing is waiting, a full backlog of clients is
accepted, below the limit on instances, and the verify phase finds no dead
connection. -/
structure Drains (s : Server W) (i : PassInput W) : Prop where
  limit : s.sockets.length ≤ s.maxClients
  waiting : (s.connected i).waitingSockets = []
  full : winBacklogNum ≤ (s.connected i).pendingSockets.length
  listener : i.onAccept = true
  accepted : ∀ h ∈ (s.connected i).pendingSockets, (i.offer h).accept = true
  alive : (s.offered i).activeSockets.countP (Dead i.expired i.good) = 0

theorem offered_of_listener {i : PassInput W} (h : i.onAccept = true) : s.offered i =
    { (s.connected i).settleAll i.offer (s.connected i).pendingSockets with pendingSockets := [] } := by
  unfold Server.offered
  rw [h, acceptPhase_eq]

/-- A pass that drains the backlog leaves the server unreachable. -/
theorem Drains.not_reachable {i : PassInput W} (h : s.Drains i) (hzero : i.ConnectsReturnZero)
    (hov : s.ovmap = []) : (s.verified i).backlog = 0 ∧
      (s.verified i).sockets.length ≤ s.maxClients := by
  have hfull := settleAll_full h.full h.accepted
  have hback : (s.offered i).backlog = 0 := by
    rw [offered_of_listener h.listener]
    show (settleAll _ _ _).waitingSockets.length + 0 = 0
    rw [hfull.1, h.waiting]
    rfl
  have hsockets : (s.verified i).sockets = s.sockets := by
    calc (s.verified i).sockets = (s.offered i).sockets := (verified_lists i s).1
      _ = ((s.connected i).settleAll i.offer (s.connected i).pendingSockets).sockets := by
          rw [offered_of_listener h.listener]
      _ = (s.connected i).sockets := hfull.2
      _ = s.sockets := (connected_sockets hzero hov).1
  exact ⟨verify_backlog.2 ⟨hback, h.alive⟩, hsockets ▸ h.limit⟩

/-- A pass after which there is no backlog, though there was one before and the
server is below its limit, has drained it. -/
theorem drains_of_backlog {i : PassInput W} (hzero : i.ConnectsReturnZero) (hov : s.ovmap = [])
    (hcreated : invalidHandleValue ∉ (s.verified i).created) (hpos : 0 < s.maxClients)
    (hlimit : (s.verified i).sockets.length ≤ s.maxClients) (hbefore : 0 < s.backlog)
    (hnone : (s.verified i).backlog = 0) : s.Drains i := by
  obtain ⟨hback, halive⟩ := verify_backlog.1 hnone
  have hconnected : 0 < (s.connected i).backlog := (connected_backlog hzero hov).symm ▸ hbefore
  have haccept := acceptPhase_advances i.onAccept i.offer (s.connected i)
  have hbelow : (s.connected i).sockets.length ≤ s.maxClients :=
    Nat.le_trans haccept.sockets.length_le ((verified_lists i s).1 ▸ hlimit)
  have hmax : (s.connected i).maxClients = s.maxClients :=
    (connected_advances hzero hov).maxClients
  have hlistener : i.onAccept = true := by
    by_contra hnot
    rw [Server.offered, acceptPhase, if_neg hnot] at hback
    exact absurd hback (Nat.ne_of_gt hconnected)
  have hoffered := offered_of_listener (s := s) hlistener
  have hwaiting : ((s.connected i).settleAll i.offer
      (s.connected i).pendingSockets).waitingSockets = [] := by
    rw [hoffered] at hback
    exact List.length_eq_zero_iff.1 (Nat.eq_zero_of_add_eq_zero_right hback)
  have hnothing : (s.connected i).waitingSockets = [] :=
    List.prefix_nil.1 (hwaiting ▸ settleAll_waiting i.offer _ _)
  refine ⟨?_, hnothing, ?_, hlistener, settleAll_refused hwaiting, halive⟩
  · exact (connected_sockets hzero hov).1 ▸ hbelow
  · by_contra hroom
    cases hpending : (s.connected i).pendingSockets with
    | nil =>
        unfold backlog at hconnected
        rw [hnothing, hpending] at hconnected
        exact absurd hconnected (lt_irrefl 0)
    | cons a rest =>
        apply settleAll_room (s := s.connected i) i.offer a rest
        · unfold backlog
          rw [hnothing, List.length_nil, Nat.zero_add]
          exact Nat.lt_of_not_le hroom
        · rw [hmax]
          exact hbelow
        · rw [hmax]
          exact hpos
        · rw [← hpending]
          intro hmem
          apply hcreated
          rw [(verified_lists i s).2, hoffered]
          exact hmem
        · rw [← hpending]
          exact hwaiting

/-! ## Runs of a server with successful creations -/

/-- Every call of `_create_socket` up to the end of this step has succeeded. -/
def Created (t : Transition (Server W) (Label W)) : Prop := invalidHandleValue ∉ t.dst.created

/-- If this step is a pass, it leaves a server below its limit reachable. -/
def StaysReachable (t : Transition (Server W) (Label W)) : Prop :=
  match t.label with
  | .pass _ => t.dst.Reachable
  | .create .. | .close => True

instance (t : Transition (Server W) (Label W)) : Decidable (Created t) :=
  inferInstanceAs (Decidable (invalidHandleValue ∉ t.dst.created))

instance : DecidablePred (StaysReachable (W := W))
  | ⟨_, .pass _, dst⟩ => inferInstanceAs (Decidable dst.Reachable)
  | ⟨_, .create .., _⟩ | ⟨_, .close, _⟩ => .isTrue trivial

/-- This step is no pass that drains the backlog of a server with a limit. -/
def NotDrained (t : Transition (Server W) (Label W)) : Prop :=
  match t.label with
  | .pass i => 0 < t.src.maxClients → ¬ t.src.Drains i
  | .create .. | .close => True

/-- A server that runs is reachable when it is below its limit. -/
structure Admits (s : Server W) : Prop where
  inv : s.Inv
  reachable : s.running = true → s.Reachable

/-- The loop of `create` opens one waiting instance a round. -/
theorem spawn_backlog {replies : ℕ → Option HANDLE} : ∀ {n : ℕ} {s s' : Server W},
    spawn replies n s = (.success, s') → s'.backlog = s.backlog + n := by
  intro n
  induction n with
  | zero =>
      intro s s' h
      cases h
      rfl
  | succ n ih =>
      intro s s' h
      rcases s.createSocket_cases (replies n) with hc | ⟨a, hne, -, hc⟩
      · rw [spawn, hc] at h
        cases h
      · rw [spawn, hc] at h
        simp only [hne, if_false] at h
        rw [ih h]
        simp only [backlog, enlist, List.length_append, List.length_singleton]
        omega

theorem Admits.create (h : s.Inv) (path : List Char) (maxClients : ℕ)
    (replies : ℕ → Option HANDLE) : (s.create path maxClients replies).2.Admits := by
  refine ⟨(h.create path maxClients replies).1, ?_⟩
  rcases s.create_cases path maxClients replies with ⟨s', hspawn, hcreate⟩ | hcreate
  · rw [hcreate]
    intro _ _ _
    show 0 < s'.backlog
    rw [spawn_backlog hspawn]
    exact Nat.add_pos_right _ (by decide)
  · -- The loop failed, and `close` has stopped the watcher.
    rw [hcreate]
    intro hrunning
    rw [s.spawn_running path maxClients replies] at hrunning
    cases hrunning

/-- A pass leaves the server reachable exactly when it does not drain the backlog. -/
theorem Admits.pass_iff {i : PassInput W} (h : s.Admits) (hzero : i.ConnectsReturnZero)
    (hrunning : s.running = true) (hcreated : invalidHandleValue ∉ (s.verified i).created) :
    (s.verified i).Reachable ↔ (0 < s.maxClients → ¬ s.Drains i) := by
  have hov := h.inv.ovmap
  have hadvances := verified_advances (s := s) hzero hov
  have hmax : (s.verified i).maxClients = s.maxClients := hadvances.maxClients
  constructor
  · intro hreach hpos hdrains
    obtain ⟨hnone, hlimit⟩ := hdrains.not_reachable hzero hov
    have hback := hreach (hmax.symm ▸ hpos) (hmax.symm ▸ hlimit)
    rw [hnone] at hback
    exact absurd hback (lt_irrefl 0)
  · intro hdrains hpos hlimit
    rw [hmax] at hpos hlimit
    by_contra hnone
    have hbefore : 0 < s.backlog := h.reachable hrunning hpos (Nat.le_trans hadvances.sockets.length_le hlimit)
    exact hdrains hpos (drains_of_backlog hzero hov hcreated hpos hlimit hbefore
      (Nat.eq_zero_of_not_pos hnone))

theorem Admits.step_iff {t : Transition (Server W) (Label W)}
    (hs : t.src.step t.label = some t.dst) (hzero : t.label.ConnectsReturnZero)
    (hcreated : Created t) (h : t.src.Admits) :
    (StaysReachable t ↔ NotDrained t) ∧ (NotDrained t → t.dst.Admits) := by
  have hinv := (h.inv.step hs hzero).1
  obtain ⟨s, l, s'⟩ := t
  have hstep : s.step l = some s' := hs
  rcases step_cases hstep h.inv.ovmap with
    ⟨path, maxClients, replies, rfl, rfl⟩ | ⟨i, rfl, hrunning, rfl⟩ | ⟨rfl, rfl⟩
  · exact ⟨.rfl, fun _ ↦ Admits.create h.inv path maxClients replies⟩
  · have hiff := h.pass_iff hzero hrunning hcreated
    exact ⟨hiff, fun hn ↦ ⟨hinv, fun _ ↦ hiff.2 hn⟩⟩
  · exact ⟨.rfl, fun _ ↦ ⟨hinv, nofun⟩⟩

/-- **A server below its limit stays reachable**, in a run in which every
`_create_socket` succeeds, exactly as long as no pass accepts a full backlog at once
while nothing else is waiting and no connection is found dead. -/
theorem stays_reachable {ts : List (Transition (Server W) (Label W))}
    (hrun : Run step start ts s) (hzero : ∀ t ∈ ts, t.label.ConnectsReturnZero)
    (hcreated : ∀ t ∈ ts, Created t) :
    (∀ t ∈ ts, StaysReachable t) ↔ ∀ t ∈ ts, NotDrained t :=
  hrun.forall_iff (I := Admits) (H := fun t ↦ t.label.ConnectsReturnZero ∧ Created t)
    (fun _ hs hH hc h ↦ (h.step_iff hs hH.1 hH.2).2 hc)
    (fun _ hs hH h ↦ (h.step_iff hs hH.1 hH.2).1) ⟨Inv.start, nofun⟩
    fun t ht ↦ ⟨hzero t ht, hcreated t ht⟩

/-- Clients come one after the other; a new instance replaces the second. -/
theorem stays_reachable_two : ∃ ts s, Run step (start : Server Unit) ts s ∧
    s.sockets.length = 9 ∧ ∀ t ∈ ts, NotDrained t := by
  obtain ⟨ts, s, hrun, hzero, hcreated, hstays, hlength⟩ := Run.exists_of_labels step start
    [createEight 100, acceptAll [1] 9 true, acceptAll [2] 9 true] Label.ConnectsReturnZero
    (fun ts s ↦ (∀ t ∈ ts, Created t) ∧ (∀ t ∈ ts, StaysReachable t) ∧ s.sockets.length = 9)
    (by simp) ⟨_, rfl, by decide⟩
  exact ⟨ts, s, hrun, hlength, (stays_reachable hrun hzero hcreated).1 hstays⟩

/-- Eight clients come to the eight instances of a server for a hundred, and are all
accepted in one pass: no ninth client can connect. -/
theorem full_backlog_drained : ∃ ts s, Run step (start : Server Unit) ts s ∧
    (∀ t ∈ ts, t.label.ConnectsReturnZero) ∧ (∀ t ∈ ts, Created t) ∧ s.maxClients = 100 ∧
      s.sockets.length ≤ s.maxClients ∧ s.waitingSockets = [] ∧ s.pendingSockets = [] :=
  Run.exists_of_labels step start
    [createEight 100, acceptAll [1, 2, 3, 4, 5, 6, 7, 8] 9 true] Label.ConnectsReturnZero
    (fun ts s ↦ (∀ t ∈ ts, Created t) ∧ s.maxClients = 100 ∧
      s.sockets.length ≤ s.maxClients ∧ s.waitingSockets = [] ∧ s.pendingSockets = [])
    (by simp) ⟨_, rfl, by decide⟩

/-! ## The client limit -/

/-- The clients that `on_accept` accepts in a pass. -/
def acceptedCount (i : PassInput W) (s : Server W) : ℕ :=
  if i.onAccept then (s.connected i).pendingSockets.countP fun h ↦ (i.offer h).accept else 0

/-- There are no more active sockets than the limit allows. -/
def WithinLimit (s : Server W) : Prop := 0 < s.maxClients → s.activeSockets.length ≤ s.maxClients

/-- In this step `on_accept` accepts no more clients than the limit leaves room for. -/
def AcceptsWithinLimit (s : Server W) : Label W → Prop
  | .pass i => 0 < s.maxClients → s.activeSockets.length + s.acceptedCount i ≤ s.maxClients
  | .create .. | .close => True

instance (s : Server W) : (l : Label W) → Decidable (s.AcceptsWithinLimit l)
  | .pass i => inferInstanceAs (Decidable
      (0 < s.maxClients → s.activeSockets.length + s.acceptedCount i ≤ s.maxClients))
  | .create .. | .close => .isTrue trivial

theorem restock_active (reply : Option HANDLE) (s : Server W) :
    (restock reply s).activeSockets = s.activeSockets := by
  rcases restock_cases reply s with ⟨hr, -⟩ | hr | ⟨h, -, -, -, hr⟩
  · rw [hr]
  · rw [hr]
  · rw [hr]
    rfl

/-- Every client accepted is one more active socket. -/
theorem settle_active {rest : List HANDLE} {h : HANDLE} (hbooks : s.Books (h :: rest))
    (offer : Offer W) : (s.settle offer h).activeSockets.length =
      s.activeSockets.length + if offer.accept then 1 else 0 := by
  unfold settle
  by_cases haccept : offer.accept = true
  · rw [if_pos haccept, if_pos haccept, restock_active]
    exact (OrderedMap.insert_perm hbooks.not_active).length_eq
  · rw [if_neg haccept, if_neg haccept]
    rfl

theorem settleAll_active {offer : HANDLE → Offer W} {l : List HANDLE} (hbooks : s.Books l) :
    (s.settleAll offer l).activeSockets.length =
      s.activeSockets.length + l.countP fun h ↦ (offer h).accept := by
  have hfold := foldl_rule (f := fun (s' : Server W) h ↦ s'.settle (offer h) h)
    (I := fun rest (s' : Server W) ↦ s'.Books rest ∧
      s'.activeSockets.length + rest.countP (fun h ↦ (offer h).accept) =
        s.activeSockets.length + l.countP fun h ↦ (offer h).accept)
    (fun h rest s' ⟨hb, hsum⟩ ↦ ⟨hb.settle (offer h), by
      rw [settle_active hb, ← hsum, List.countP_cons, Nat.add_assoc, Nat.add_comm (List.countP _ _)]⟩)
    (l := l) (s := s) ⟨hbooks, rfl⟩
  exact hfold.2

theorem offered_active {i : PassInput W} (hinv : s.Inv) (hzero : i.ConnectsReturnZero) :
    (s.offered i).activeSockets.length = s.activeSockets.length + s.acceptedCount i := by
  have hactive := (connected_sockets hzero hinv.ovmap).2
  unfold acceptedCount
  by_cases hlistener : i.onAccept = true
  · rw [if_pos hlistener, offered_of_listener hlistener, ← hactive]
    exact settleAll_active (hinv.connected hzero).partitioned
  · rw [if_neg hlistener, Server.offered, acceptPhase, if_neg hlistener, hactive, Nat.add_zero]

/-- The verify phase only removes active sockets. -/
theorem verified_active (i : PassInput W) (s : Server W) :
    (s.verified i).activeSockets.length ≤ (s.offered i).activeSockets.length := by
  refine Nat.le_trans (List.length_filter_le _ _) ?_
  apply foldl_rule (I := fun _ (st : Server W × List HANDLE) ↦
    st.1.activeSockets.length ≤ (s.offered i).activeSockets.length) ?_ (Nat.le_refl _)
  rintro e - ⟨s', toKill⟩ hs'
  rw [verifyOne_eq]
  split
  · have herase := Nat.le_trans (List.length_filter_le (fun a : HANDLE × W ↦ a.1 ≠ e.1)
      s'.activeSockets) hs'
    rcases retire_cases e.1 s' toKill with ⟨-, hr⟩ | ⟨-, hr⟩
    · rw [hr]
      exact herase
    · rw [hr]
      exact herase
  · exact hs'

/-- `create` starts without active sockets. -/
theorem create_active (path : List Char) (maxClients : ℕ) (replies : ℕ → Option HANDLE)
    (s : Server W) : (s.create path maxClients replies).2.activeSockets = [] ∧
      ∀ r ∈ spawnReleases replies winBacklogNum (s.prepare path maxClients),
        r.activeSockets = [] :=
  create_rule (P := fun s ↦ s.activeSockets = []) path maxClients replies (fun _ _ ↦ rfl)
    (fun _ _ hs _ _ ↦ hs) (fun _ hs ↦ hs) rfl

theorem withinLimit_of_nil (h : s.activeSockets = []) : s.WithinLimit := by
  intro _
  rw [h]
  exact Nat.zero_le _

/-- A pass stays within the limit exactly when its accept phase does. -/
theorem pass_withinLimit_iff {i : PassInput W} (hinv : s.Inv) (hzero : i.ConnectsReturnZero) :
    (∀ r ∈ s.releases (.pass i), r.WithinLimit) ↔ s.AcceptsWithinLimit (.pass i) := by
  have hc := (connected_advances (s := s) hzero hinv.ovmap).maxClients
  have ho := (offered_advances (s := s) hzero hinv.ovmap).maxClients
  have hv := (verified_advances (s := s) hzero hinv.ovmap).maxClients
  have hcount := offered_active hinv hzero
  have hactive := (connected_sockets (s := s) hzero hinv.ovmap).2
  rw [forall_releases_pass]
  unfold WithinLimit
  constructor
  · rintro ⟨-, hoffered, -⟩
    rw [ho, hcount] at hoffered
    exact hoffered
  · intro hwithin
    refine ⟨?_, ?_, ?_⟩
    · rw [hc, hactive]
      exact fun hpos ↦ Nat.le_trans (Nat.le_add_right _ _) (hwithin hpos)
    · rw [ho, hcount]
      exact hwithin
    · rw [hv]
      exact fun hpos ↦ Nat.le_trans (verified_active i s) (hcount ▸ hwithin hpos)

theorem withinLimit_iff {t : Transition (Server W) (Label W)}
    (hzero : t.label.ConnectsReturnZero) (hinv : t.src.Inv) :
    (∀ r ∈ t.src.releases t.label, r.WithinLimit) ↔ t.src.AcceptsWithinLimit t.label := by
  obtain ⟨s, l, s'⟩ := t
  cases l with
  | create path maxClients replies =>
      obtain ⟨hlast, hall⟩ := create_active path maxClients replies s
      exact iff_of_true (forall_releases_create.2 ⟨withinLimit_of_nil rfl,
        fun r hr ↦ withinLimit_of_nil (hall r hr), withinLimit_of_nil hlast⟩) trivial
  | pass i => exact pass_withinLimit_iff hinv hzero
  | close => exact iff_of_true (List.forall_mem_singleton.2 (withinLimit_of_nil rfl)) trivial

/-- **The client limit.**  In a run, the active sockets are within the limit whenever
the lock is released exactly when `on_accept` never accepts more clients in a pass
than the limit leaves room for. -/
theorem client_limit {ts : List (Transition (Server W) (Label W))}
    (hrun : Run step start ts s) (hzero : ∀ t ∈ ts, t.label.ConnectsReturnZero) :
    (∀ t ∈ ts, ∀ r ∈ t.src.releases t.label, r.WithinLimit) ↔
      ∀ t ∈ ts, t.src.AcceptsWithinLimit t.label :=
  hrun.forall_iff (I := Inv) (fun _ hs hz _ h ↦ (h.step hs hz).1)
    (fun _ _ hz h ↦ withinLimit_iff hz h) Inv.start hzero

/-- A server for one client, which refuses one and takes the next. -/
theorem client_limit_one : ∃ ts s, Run step (start : Server Unit) ts s ∧
    s.maxClients = 1 ∧ s.activeSockets = [(2, ())] ∧
      ∀ t ∈ ts, ∀ r ∈ t.src.releases t.label, r.WithinLimit := by
  obtain ⟨ts, s, hrun, hzero, hwithin, hmax, hactive⟩ := Run.exists_of_labels step start
    [createEight 1, refuseAll [1], acceptAll [2] 9 true] Label.ConnectsReturnZero
    (fun ts s ↦ (∀ t ∈ ts, t.src.AcceptsWithinLimit t.label) ∧ s.maxClients = 1 ∧
      s.activeSockets = [(2, ())])
    (by simp) ⟨_, rfl, by decide⟩
  exact ⟨ts, s, hrun, hmax, hactive, (client_limit hrun hzero).2 hwithin⟩

/-- A server for one client that accepts two at once. -/
theorem client_limit_exceeded : ∃ ts s, Run step (start : Server Unit) ts s ∧
    (∀ t ∈ ts, t.label.ConnectsReturnZero) ∧ s.maxClients = 1 ∧ s.activeSockets.length = 2 :=
  Run.exists_of_labels step start [createEight 1, acceptAll [1, 2] 9 true] Label.ConnectsReturnZero
    (fun _ s ↦ s.maxClients = 1 ∧ s.activeSockets.length = 2)
    (by simp) ⟨_, rfl, by decide⟩

end Server

end Datapath.Windows
