import Datapath.Windows.Server.Phases
import Datapath.Windows.Socket.Lifecycle

/-!
# Threads that are still joinable

Assigning to a `std::thread` that can be joined, or destroying it, ends the process.  A
socket joins its watcher when it is closed, which its destructor sees to, but `connect`
does not; a server joins it in `close`, which `create` begins with, but its destructor is
empty.
-/

namespace Datapath.Windows

open Datapath.Lib

/-! ## Sockets -/

namespace SocketObject

variable {s s' : SocketObject}

/-- `connect` has a handle for an object that is connected. -/
def Overwrites (t : Transition SocketObject Label) : Prop :=
  match t.label with
  | .connect path reply => Connects path reply ∧ t.src.isConnected = true
  | .accept _ | .close | .disconnect | .destroy | .release => False

instance : DecidablePred Overwrites
  | ⟨s, .connect path reply, _⟩ => inferInstanceAs (Decidable (Connects path reply ∧ s.isConnected = true))
  | ⟨_, .accept _, _⟩ | ⟨_, .close, _⟩ | ⟨_, .disconnect, _⟩ | ⟨_, .destroy, _⟩ | ⟨_, .release, _⟩ =>
    .isFalse id

/-- The watcher can be joined exactly while the object is connected, which it is not when
its destructor has done with `close`. -/
structure Inv (s : SocketObject) : Prop where
  joinable : s.task.joinable = s.isConnected
  ending : s.life = .ending → s.closing = 0 → s.isConnected = false

/-- A step either overwrites the thread, which ends the process, or keeps the invariant. -/
theorem Inv.step {l : Label} (h : s.Inv) (hs : Stepped s l s') :
    (Overwrites ⟨s, l, s'⟩ ∧ ¬ s'.life ≠ .terminated) ∨
      (¬ Overwrites ⟨s, l, s'⟩ ∧ s'.life ≠ .terminated ∧ s'.Inv) := by
  have hstays : s.life ≠ .terminated := by
    intro hended
    have hlife := hs.life
    rw [hended] at hlife
    rcases hlife with hlife | hlife <;> cases hlife
  cases hs with
  | fail halive hfails =>
    refine .inr ⟨fun hover ↦ hfails hover.1, hstays, h.joinable, fun hending ↦ ?_⟩
    cases halive.symm.trans hending
  | connect halive _ _ hfree =>
    have hclosed : s.isConnected = false := h.joinable.symm.trans hfree
    refine .inr ⟨fun hover ↦ ?_, hstays, rfl, fun hending ↦ ?_⟩
    · cases hclosed.symm.trans hover.2
    · cases halive.symm.trans hending
  | overwrite _ hconnects _ hjoinable =>
    exact .inl ⟨⟨hconnects, h.joinable.symm.trans hjoinable⟩, not_not.2 rfl⟩
  | accept hnew =>
    subst hnew
    exact .inr ⟨id, hstays, rfl, by rintro ⟨⟩⟩
  | acceptInvalid | closed => exact .inr ⟨id, hstays, h⟩
  | close => exact .inr ⟨id, hstays, h.joinable, fun _ hzero ↦ absurd hzero (Nat.succ_ne_zero _)⟩
  | disconnect => exact .inr ⟨id, hstays, s.task.joinable_join, fun _ _ ↦ rfl⟩
  | destroyClosed _ _ hclosed => exact .inr ⟨id, by rintro ⟨⟩, h.joinable, fun _ _ ↦ hclosed⟩
  | destroy =>
    exact .inr ⟨id, by rintro ⟨⟩, h.joinable, fun _ hzero ↦ absurd hzero (Nat.succ_ne_zero _)⟩
  | release => exact .inr ⟨id, by rintro ⟨⟩, h.joinable, by rintro ⟨⟩⟩
  | abandon hending hclosing hjoinable =>
    have hclosed := h.ending hending hclosing
    cases (h.joinable.symm.trans hjoinable).symm.trans hclosed

/-- In a run of a socket the process does not end as long as nothing is overwritten. -/
theorem terminated_iff {ts : List (Transition SocketObject Label)} (hrun : Run step {} ts s) :
    (∀ t ∈ ts, t.dst.life ≠ .terminated) ↔ ∀ t ∈ ts, ¬ Overwrites t :=
  hrun.forall_iff_not (I := Inv) (fun _ hs h ↦ h.step (stepped hs)) ⟨rfl, by rintro ⟨⟩⟩

end SocketObject

/-! ## Servers -/

/-- `windows::server`, with its `watcher.task`. -/
structure ServerObject (W : Type*) where
  server : Server W := .start
  task : StdThread := {}
  life : Life := .alive

namespace ServerObject

variable {W : Type*}

/-- What can happen to a server object. -/
inductive Label (W : Type*) where
  /-- `server::host`, with this object, or without one, which makes this object. -/
  | host (path : List Char) (maxClients : ℕ) (replies : ℕ → Option HANDLE)
  /-- A pass of the watcher. -/
  | pass (i : PassInput W)
  | close
  /-- `~server`, and the end of the members. -/
  | destroy

/-- `close`, which joins the watcher. -/
def close (s : ServerObject W) : ServerObject W := { s with server := s.server.close, task := s.task.join }

/-- `host`.  The watcher has been joined, as `create` begins with `close`, when the new
thread is assigned. -/
def host (path : List Char) (maxClients : ℕ) (replies : ℕ → Option HANDLE) (s : ServerObject W) :
    error × ServerObject W :=
  match s.server.create path maxClients replies with
  | (.success, server) =>
      match s.close.task.assign with
      | none => (.success, { s with server, life := .terminated })
      | some task => (.success, { s with server, task })
  | (ec, server) => (ec, { s with server, task := s.close.task })

/-- `~server`, and the end of the members. -/
def destroy (s : ServerObject W) : ServerObject W :=
  match s.task.destroy with
  | none => { s with life := .terminated }
  | some _ => { s with life := .ended }

/-- One step. -/
def step (s : ServerObject W) : Label W → Option (ServerObject W)
  | .host path maxClients replies =>
      if s.life = .alive then some (s.host path maxClients replies).2 else none
  | .pass i => if s.life = .alive then (s.server.pass i).map fun server ↦ { s with server } else none
  | .close => if s.life = .alive then some s.close else none
  | .destroy => if s.life = .alive then some s.destroy else none

variable {s s' : ServerObject W}

/-- A server is destroyed while its watcher runs. -/
def Abandons (t : Transition (ServerObject W) (Label W)) : Prop :=
  match t.label with
  | .destroy => t.src.server.running = true
  | .host .. | .pass _ | .close => False

instance : DecidablePred (Abandons (W := W))
  | ⟨s, .destroy, _⟩ => inferInstanceAs (Decidable (s.server.running = true))
  | ⟨_, .host .., _⟩ | ⟨_, .pass _, _⟩ | ⟨_, .close, _⟩ => .isFalse id

/-- The watcher can be joined exactly while it runs. -/
def Inv (s : ServerObject W) : Prop := s.task.joinable = s.server.running

theorem Inv.host (path : List Char) (maxClients : ℕ) (replies : ℕ → Option HANDLE) (s : ServerObject W) :
    (s.host path maxClients replies).2.Inv ∧ (s.host path maxClients replies).2.life = s.life := by
  have hassign : s.close.task.assign = some { joinable := true } :=
    StdThread.assign_of_not_joinable s.task.joinable_join
  have hcreate := s.server.create_running path maxClients replies
  unfold ServerObject.host
  split
  case h_1 server heq =>
    rw [heq] at hcreate
    rw [hassign]
    rcases hcreate with ⟨-, hrunning⟩ | ⟨hne, -⟩
    · exact ⟨hrunning.symm, rfl⟩
    · exact absurd rfl hne
  case h_2 ec server hne heq =>
    rw [heq] at hcreate
    rcases hcreate with ⟨hec, -⟩ | ⟨-, hstopped⟩
    · exact absurd hec hne
    · exact ⟨s.task.joinable_join.trans hstopped.symm, rfl⟩

/-- A step either abandons the thread, which ends the process, or keeps the invariant. -/
theorem Inv.step {l : Label W} (h : s.Inv) (hs : s.step l = some s') :
    (Abandons ⟨s, l, s'⟩ ∧ ¬ s'.life ≠ .terminated) ∨
      (¬ Abandons ⟨s, l, s'⟩ ∧ s'.life ≠ .terminated ∧ s'.Inv) := by
  cases l with
  | host path maxClients replies =>
    obtain ⟨halive, ⟨⟩⟩ := Option.ite_none_right_eq_some.1 hs
    obtain ⟨hdst, hlife⟩ := Inv.host path maxClients replies s
    refine .inr ⟨id, fun hended ↦ ?_, hdst⟩
    cases (hlife.trans halive).symm.trans hended
  | pass i =>
    obtain ⟨halive, hpass⟩ := Option.ite_none_right_eq_some.1 hs
    obtain ⟨server, hserver, rfl⟩ := Option.map_eq_some_iff.1 hpass
    refine .inr ⟨id, fun hended ↦ ?_, h.trans (Server.pass_running hserver).symm⟩
    cases halive.symm.trans hended
  | close =>
    obtain ⟨halive, ⟨⟩⟩ := Option.ite_none_right_eq_some.1 hs
    refine .inr ⟨id, fun hended ↦ ?_, s.task.joinable_join⟩
    cases halive.symm.trans hended
  | destroy =>
    obtain ⟨halive, ⟨⟩⟩ := Option.ite_none_right_eq_some.1 hs
    unfold ServerObject.destroy
    cases hrunning : s.server.running with
    | true =>
      rw [StdThread.destroy_of_joinable (h.trans hrunning)]
      exact .inl ⟨hrunning, not_not.2 rfl⟩
    | false =>
      rw [StdThread.destroy_of_not_joinable (h.trans hrunning)]
      refine .inr ⟨fun hover ↦ ?_, by rintro ⟨⟩, h⟩
      cases hrunning.symm.trans hover

/-- In a run of a server the process does not end as long as nothing is abandoned. -/
theorem terminated_iff {ts : List (Transition (ServerObject W) (Label W))} (hrun : Run step {} ts s) :
    (∀ t ∈ ts, t.dst.life ≠ .terminated) ↔ ∀ t ∈ ts, ¬ Abandons t :=
  hrun.forall_iff_not (I := Inv) (fun _ hs h ↦ h.step hs) rfl

end ServerObject

/-! ## Both -/

/-- **The thread of a watcher is not assigned to or destroyed while it can be joined**
exactly if `connect` gets no handle for a socket that is connected, and no server is
destroyed while its watcher runs. -/
theorem threads_joined_iff {W : Type*} {s : SocketObject} {r : ServerObject W}
    {ts : List (Transition SocketObject SocketObject.Label)}
    {us : List (Transition (ServerObject W) (ServerObject.Label W))}
    (hs : Run SocketObject.step {} ts s) (hr : Run ServerObject.step {} us r) :
    ((∀ t ∈ ts, t.dst.life ≠ .terminated) ↔ ∀ t ∈ ts, ¬ SocketObject.Overwrites t) ∧
      ((∀ u ∈ us, u.dst.life ≠ .terminated) ↔ ∀ u ∈ us, ¬ ServerObject.Abandons u) :=
  ⟨SocketObject.terminated_iff hs, ServerObject.terminated_iff hr⟩

/-- A socket that is closed before it is connected again, and a server that is hosted twice
and closed. -/
theorem threads_joined_iff_closed : ∃ ts s us r, Run SocketObject.step {} ts s ∧
    Run ServerObject.step ({} : ServerObject Unit) us r ∧ s.life = .ended ∧ r.life = .ended ∧
    (∀ t ∈ ts, t.dst.life ≠ .terminated) ∧ ∀ u ∈ us, u.dst.life ≠ .terminated := by
  obtain ⟨ts, s, hs, hover, hended⟩ := Run.exists_of_trace SocketObject.step {}
    [.connect ['p'] { handle := 4 }, .close, .disconnect, .connect ['p'] { handle := 8 }, .destroy,
      .disconnect, .release]
    (fun ts s ↦ (∀ t ∈ ts, ¬ SocketObject.Overwrites t) ∧ s.life = .ended) ⟨_, rfl, by decide⟩
  obtain ⟨us, r, hr, habandons, hended'⟩ := Run.exists_of_trace ServerObject.step ({} : ServerObject Unit)
    [.host ['p'] 8 fun n ↦ some (8 - n), .host ['q'] 8 fun n ↦ some (18 - n), .close, .destroy]
    (fun us r ↦ (∀ u ∈ us, ¬ ServerObject.Abandons u) ∧ r.life = .ended) ⟨_, rfl, by decide⟩
  obtain ⟨hsocket, hserver⟩ := threads_joined_iff hs hr
  exact ⟨ts, s, us, r, hs, hr, hended, hended', hsocket.2 hover, hserver.2 habandons⟩

/-- A socket that is connected twice, and a server that is destroyed without a call of
`close`. -/
theorem threads_lost :
    (∃ ts s, Run SocketObject.step {} ts s ∧ s.task.joinable = true ∧ s.life = .terminated) ∧
      ∃ us r, Run ServerObject.step ({} : ServerObject Unit) us r ∧ r.task.joinable = true ∧
        r.life = .terminated := by
  constructor
  · exact Run.exists_of_trace SocketObject.step {}
      [.connect ['p'] { handle := 4 }, .connect ['p'] { handle := 8 }]
      (fun _ s ↦ s.task.joinable = true ∧ s.life = .terminated) ⟨_, rfl, by decide⟩
  · exact Run.exists_of_trace ServerObject.step ({} : ServerObject Unit)
      [.host ['p'] 8 fun n ↦ some (8 - n), .destroy]
      (fun _ r ↦ r.task.joinable = true ∧ r.life = .terminated) ⟨_, rfl, by decide⟩

end Datapath.Windows
