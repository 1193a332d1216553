import Datapath.Windows.Server.Erasure
import Datapath.Windows.Server.Handles

/-!
# Watched handles

If `ConnectNamedPipe` returns something other than zero, the handle is watched: its
overlapped object is kept in `ovmap`, and a callback is to move the handle from
`waiting_sockets` to `pending_sockets` when the event is signalled.  The callback refers to
the variables `itr` and `handle` of the loop that has registered it.  It is called from the
waits of a later pass, when that loop has ended and `itr` is `end()`, so that there is
nothing that it could erase (`never_promoted`).

Nothing is assumed here about what `ConnectNamedPipe` returns.
-/

namespace Datapath.Windows

open Datapath.Lib

namespace Server

variable {W : Type*} {s : Server W}

/-- When the event of this handle is signalled, it becomes a pending one, and is not watched
any more. -/
def Promotes (s : Server W) (h : HANDLE) : Prop :=
  ∃ s', s.waitPhase (some h) = some s' ∧ s'.waitingSockets = s.waitingSockets.erase h ∧
    s'.pendingSockets = s.pendingSockets ++ [h] ∧ s'.ovmap = s.ovmap.filter (· ≠ h)

/-! ## The iterator between two passes -/

/-- The loop over the waiting handles leaves its iterator at the end. -/
theorem connectPhase_itr (connect : HANDLE → ConnectReply) (s : Server W) :
    (s.connectPhase connect).itr = none := rfl

theorem settle_itr (offer : Offer W) (h : HANDLE) (s : Server W) : (s.settle offer h).itr = s.itr := by
  unfold settle
  split
  · rcases restock_cases offer.created { s with
      onAcceptCalls := s.onAcceptCalls ++ [h]
      activeSockets := OrderedMap.insert h offer.sock s.activeSockets } with
      ⟨hr, -⟩ | hr | ⟨a, -, -, -, hr⟩
    · rw [hr]
    · rw [hr]
    · rw [hr]
      rfl
  · rfl

theorem acceptPhase_itr (onAccept : Bool) (offer : HANDLE → Offer W) (s : Server W) :
    (s.acceptPhase onAccept offer).itr = s.itr := by
  cases onAccept with
  | false => rfl
  | true =>
      rw [acceptPhase_eq]
      exact foldl_keeps itr (fun s' h ↦ settle_itr (offer h) h s') s.pendingSockets s

theorem verifyPhase_itr (expired good : W → Bool) (s : Server W) :
    (s.verifyPhase expired good).itr = s.itr := by
  unfold verifyPhase
  rw [verify_fold]

theorem verified_itr (i : PassInput W) (s : Server W) : (s.verified i).itr = none :=
  (verifyPhase_itr i.expired i.good (s.offered i)).trans
    ((acceptPhase_itr i.onAccept i.offer (s.connected i)).trans (connectPhase_itr i.connect s))

/-- After every step the iterator is at the end. -/
theorem step_itr {t : Transition (Server W) (Label W)} (hs : t.src.step t.label = some t.dst) :
    t.dst.itr = none := by
  obtain ⟨s, l, s'⟩ := t
  have hstep : s.step l = some s' := hs
  cases l with
  | create path maxClients replies =>
      cases hstep
      exact (create_rule (P := fun s : Server W ↦ s.itr = none) path maxClients replies
        (fun _ _ ↦ rfl) (fun _ _ h _ _ ↦ h) (fun _ h ↦ h) rfl).1
  | pass i =>
      obtain ⟨-, hpass⟩ := Option.ite_none_right_eq_some.1 hstep
      obtain ⟨waited, -, hdst⟩ := Option.map_eq_some_iff.1 hpass
      exact hdst ▸ verified_itr i waited
  | close =>
      cases hstep
      rfl

/-- The callback of a watched handle erases nothing that is there. -/
theorem waitPhase_of_itr {h : HANDLE} (hitr : s.itr = none) (hwatched : h ∈ s.ovmap) :
    s.waitPhase (some h) = none := by
  have hwait : s.waitPhase (some h) = s.onWaitSuccess := if_pos hwatched
  rw [hwait, onWaitSuccess, hitr]

/-- **No watched handle is ever promoted**, whichever handles are watched since which pass,
and in whatever order their events are signalled. -/
theorem never_promoted {ts : List (Transition (Server W) (Label W))} (hrun : Run step start ts s)
    {h : HANDLE} (hwatched : h ∈ s.ovmap) : ¬ s.Promotes h := by
  have hitr : s.itr = none :=
    (hrun.invariant (I := fun s ↦ s.itr = none) (C := fun _ ↦ True) (fun _ hs _ _ ↦ step_itr hs) rfl
      fun _ _ ↦ trivial).1
  rintro ⟨s', hwait, -⟩
  cases (waitPhase_of_itr hitr hwatched).symm.trans hwait

/-- A pass in which `ConnectNamedPipe` returns something other than zero. -/
def watchAll (signalled : Option HANDLE) : Label Unit :=
  .pass {
    signalled
    connect := fun _ ↦ ⟨true, errorIoPending⟩
    onAccept := true
    offer := fun _ ↦ ⟨(), true, none⟩
    expired := fun _ ↦ false
    good := fun _ ↦ true }

/-- Eight handles are watched for two passes. -/
theorem never_promoted_eight : ∃ ts s, Run step (start : Server Unit) ts s ∧
    s.ovmap = [1, 2, 3, 4, 5, 6, 7, 8] ∧ ¬ s.Promotes 3 := by
  obtain ⟨ts, s, hrun, hovmap⟩ := Run.exists_of_trace step start
    [createEight 8, watchAll none, watchAll none]
    (fun _ s ↦ s.ovmap = [1, 2, 3, 4, 5, 6, 7, 8]) ⟨_, rfl, by decide⟩
  exact ⟨ts, s, hrun, hovmap, never_promoted hrun (by rw [hovmap]; decide)⟩

/-- The event of the first of them is signalled. -/
theorem end_erased : ∃ ts s, Run step (start : Server Unit) ts s ∧ s.waitingSockets.head? = some 1 ∧
    1 ∈ s.ovmap ∧ ¬ s.Promotes 1 := by
  obtain ⟨ts, s, hrun, hfirst, hwatched, hnone⟩ := Run.exists_of_trace step start
    [createEight 8, watchAll none]
    (fun _ s ↦ s.waitingSockets.head? = some 1 ∧ 1 ∈ s.ovmap ∧ (s.waitPhase (some 1)).isNone = true)
    ⟨_, rfl, by decide⟩
  refine ⟨ts, s, hrun, hfirst, hwatched, ?_⟩
  rintro ⟨s', hwait, -⟩
  rw [hwait] at hnone
  cases hnone

end Server

end Datapath.Windows
