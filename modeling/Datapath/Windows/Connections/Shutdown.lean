import Datapath.Windows.Connections.Ownership

/-!
# Closing the server

`server::close` asks the watcher to stop, joins it, closes every handle and clears the
lists.  It does not touch the sockets that `on_accept` has handed out; where it would
have to, there is a comment.  A socket is therefore connected after `close` unless
something else has ended it before.  And one that has been ended keeps its `HANDLE`, which
the server has closed by then: `write` does not ask whether the socket is connected, and a
call of `close` on the socket that has asked before goes on (`close_ends_sockets`).

The lock of the watcher is held while it is joined.  The watcher leaves its loop at the
head only, so that a pass that has begun is finished first.  A listener of `on_accept`
that calls `close` does so on the thread that is to be joined.
-/

namespace Datapath.Windows

open Datapath.Lib

/-- What has become of the watcher thread. -/
inductive Fate where
  | fine
  /-- It waits for `watcher.lock`, which is held by a thread that waits for it. -/
  | blocked
  /-- It has joined itself; `join` has thrown, and the process has ended. -/
  | joinedItself
deriving DecidableEq, Repr

/-- A server in use. -/
structure Host where
  system : System
  /-- A call of `close` holds `watcher.lock` and waits for the watcher. -/
  closing : Bool := false
  fate : Fate := .fine

namespace Host

/-- What can happen next. -/
inductive Label where
  | act (a : Action)
  /-- A thread other than the watcher calls `close`, and asks the watcher to stop. -/
  | close
  /-- The watcher has been joined; `close` closes the handles and returns. -/
  | closed
  /-- A listener of `on_accept` calls `close`. -/
  | closeInAccept
  /-- `create`, after the `close` it begins with. -/
  | create (path : List Char) (maxClients : ℕ) (replies : ℕ → Option HANDLE)

end Host

/-- The steps of the watcher thread. -/
def Action.ofWatcher : Action → Bool
  | .connect | .accept _ | .offer | .answer .. | .acceptEnd | .verify => true
  | .clientConnects _ | .clientLeaves _ | .write _ | .close _ | .disconnect _ | .drop _ => false

/-- User code is in a listener of `on_accept`. -/
def Phase.inAccept : Phase → Bool
  | .offered .. => true
  | .connect | .accept | .offering _ | .verify => false

namespace Host

/-- The watcher thread is there and can go on.  At the head of the loop it tests
`watcher.shutdown`. -/
def goes (h : Host) : Bool :=
  h.fate = .fine && h.system.server.running && !(h.closing && h.system.phase = .connect)

/-- The watcher has been joined: the handles are closed, and `close` returns. -/
def shut (h : Host) : Host :=
  { h with closing := false, system := { h.system with server := h.system.server.close } }

/-- One step of a server in use. -/
def step (h : Host) : Label → Option Host
  | .act a =>
      if a.ofWatcher ∧ !h.goes ∨ h.fate = .joinedItself then none
      else (h.system.step a).map fun system ↦ { h with system }
  | .close => if h.closing ∨ h.fate = .joinedItself then none else some { h with closing := true }
  | .closed => if h.closing ∧ h.system.phase = .connect then some h.shut else none
  | .closeInAccept =>
      if h.system.phase.inAccept ∧ h.fate = .fine then some { h with
        fate := if h.closing then .blocked else .joinedItself }
      else none
  | .create path maxClients replies =>
      if h.closing ∨ h.system.server.running ∨ h.fate ≠ .fine then none
      else some { h with
        system := { h.system with server := (h.system.server.create path maxClients replies).2 } }

/-- A server that has not been created. -/
def start : Host := { system := System.start Server.start }

/-- What each step does. -/
inductive Stepped (h : Host) : Label → Host → Prop
  | act {a : Action} {system : System} (hgoes : a.ofWatcher = true → h.goes = true)
      (hfate : h.fate ≠ .joinedItself) (hs : h.system.step a = some system) :
      Stepped h (.act a) { h with system }
  | close (hfree : h.closing = false) (hfate : h.fate ≠ .joinedItself) :
      Stepped h .close { h with closing := true }
  | closed (hclosing : h.closing = true) (hp : h.system.phase = .connect) : Stepped h .closed h.shut
  | closeInAccept (hp : h.system.phase.inAccept = true) (hfate : h.fate = .fine) :
      Stepped h .closeInAccept { h with
        fate := if h.closing then .blocked else .joinedItself }
  | create (path : List Char) (maxClients : ℕ) (replies : ℕ → Option HANDLE)
      (hfree : h.closing = false) (hstopped : h.system.server.running = false)
      (hfate : h.fate = .fine) :
      Stepped h (.create path maxClients replies) { h with
        system := { h.system with server := (h.system.server.create path maxClients replies).2 } }

theorem step_cases {h h' : Host} {l : Label} (hs : h.step l = some h') : Stepped h l h' := by
  cases l with
  | act a =>
      obtain ⟨hnot, heq⟩ := Option.ite_none_left_eq_some.1 hs
      obtain ⟨system, hsystem, rfl⟩ := Option.map_eq_some_iff.1 heq
      obtain ⟨hgoes, hfate⟩ := not_or.1 hnot
      refine .act (fun hwatcher ↦ ?_) hfate hsystem
      by_contra hstays
      exact hgoes ⟨hwatcher, by simpa using hstays⟩
  | close =>
      obtain ⟨hnot, heq⟩ := Option.ite_none_left_eq_some.1 hs
      cases heq
      obtain ⟨hfree, hfate⟩ := not_or.1 hnot
      exact .close (Bool.eq_false_iff.2 hfree) hfate
  | closed =>
      obtain ⟨⟨hclosing, hp⟩, heq⟩ := Option.ite_none_right_eq_some.1 hs
      cases heq
      exact .closed hclosing hp
  | closeInAccept =>
      obtain ⟨⟨hp, hfate⟩, heq⟩ := Option.ite_none_right_eq_some.1 hs
      cases heq
      exact .closeInAccept hp hfate
  | create path maxClients replies =>
      obtain ⟨hnot, heq⟩ := Option.ite_none_left_eq_some.1 hs
      cases heq
      obtain ⟨hfree, hstopped, hfate⟩ := by simpa only [not_or, not_not] using hnot
      exact .create _ _ _ (Bool.eq_false_iff.2 hfree) (Bool.eq_false_iff.2 hstopped) hfate

end Host

/-! ## What ends a socket -/

namespace System

variable {s s' : System} {a : Action} {o : ℕ} {obj obj' : Socket}

/-- The action ends the object: a `close` of the socket itself disconnects it, or it is
being offered, and is refused or not kept. -/
def Ends (s : System) (o : ℕ) : Action → Prop
  | .disconnect o' => o' = o
  | .answer accept keep _ => ¬ (accept ∧ keep) ∧ s.phase.offers o
  | .connect | .accept _ | .offer | .acceptEnd | .verify | .clientConnects _ | .clientLeaves _
  | .write _ | .close _ | .drop _ => False

instance (s : System) (o : ℕ) : DecidablePred (s.Ends o)
  | .disconnect o' => inferInstanceAs (Decidable (o' = o))
  | .answer accept keep _ => inferInstanceAs (Decidable (¬ (accept ∧ keep) ∧ s.phase.offers o))
  | .connect | .accept _ | .offer | .acceptEnd | .verify | .clientConnects _ | .clientLeaves _
  | .write _ | .close _ | .drop _ => .isFalse id

/-- The object is not connected any more. -/
def Over (s : System) (o : ℕ) : Prop := ∃ obj, s.objects o = some obj ∧ obj.isConnected = false

/-- Objects get new numbers. -/
def Fresh (s : System) : Prop := ∀ o, s.made ≤ o → s.objects o = none

theorem over_iff (ho : s.objects o = some obj) : s.Over o ↔ obj.isConnected = false := by
  constructor
  · rintro ⟨obj', ho', hf⟩
    cases ho.symm.trans ho'
    exact hf
  · intro hf
    exact ⟨obj, ho, hf⟩

/-- Changing one object leaves the others as they are. -/
theorem over_update {o' : ℕ} (hs : s'.objects = Function.update s.objects o' (some obj')) :
    s'.Over o ↔ (o = o' ∧ obj'.isConnected = false) ∨ (o ≠ o' ∧ s.Over o) := by
  by_cases heq : o = o'
  · subst heq
    have ho : s'.objects o = some obj' := by rw [hs, Function.update_self]
    rw [over_iff ho]
    tauto
  · have ho : s'.objects o = s.objects o := by rw [hs, Function.update_of_ne heq]
    rw [Over, ho, ← Over]
    tauto

/-- Nothing is over that was not, when the object that is changed stays connected. -/
theorem over_update_same {o' : ℕ} (ho : s.objects o' = some obj)
    (hs : s'.objects = Function.update s.objects o' (some obj')) (hsame : obj'.isConnected = obj.isConnected) :
    s'.Over o ↔ s.Over o := by
  rw [over_update hs, hsame, ← over_iff ho]
  constructor
  · rintro (⟨rfl, hover⟩ | ⟨-, hover⟩)
    · exact hover
    · exact hover
  · intro hover
    by_cases heq : o = o'
    · exact .inl ⟨heq, heq ▸ hover⟩
    · exact .inr ⟨heq, hover⟩

/-- An object that is changed to be over is over, and the others are as before. -/
theorem over_update_over {o' : ℕ} (hs : s'.objects = Function.update s.objects o' (some obj'))
    (hover : obj'.isConnected = false) : s'.Over o ↔ s.Over o ∨ o' = o := by
  rw [over_update hs]
  constructor
  · rintro (⟨rfl, -⟩ | ⟨-, h⟩)
    · exact .inr rfl
    · exact .inl h
  · intro h
    by_cases heq : o = o'
    · exact .inl ⟨heq, hover⟩
    · exact .inr ⟨heq, h.resolve_right fun h ↦ heq h.symm⟩

theorem offers_iff {h : HANDLE} {o' : ℕ} {rest : List HANDLE} (hp : s.phase = .offered h o' rest) :
    s.phase.offers o = true ↔ o' = o := by
  rw [hp]
  exact decide_eq_true_iff

/-- **What an action does to the objects.**  An object is over afterwards when it was
before, or the action ends it. -/
theorem step_over (hfresh : s.Fresh) (hs : s.step a = some s') :
    s'.Over o ↔ s.Over o ∨ s.Ends o a := by
  cases step_cases hs with
  | connect | accept | acceptEnd | verify | clientConnects | clientLeaves | write | closed =>
      exact (or_iff_left id).symm
  | keep =>
      refine (or_iff_left ?_).symm
      rintro ⟨hkeep, -⟩
      exact hkeep ⟨rfl, rfl⟩
  | offer =>
      refine (over_update rfl).trans ?_
      constructor
      · rintro (⟨-, hf⟩ | ⟨-, hover⟩)
        · cases hf
        · exact .inl hover
      · rintro (⟨obj, ho, hf⟩ | hf)
        · refine .inr ⟨?_, obj, ho, hf⟩
          rintro rfl
          rw [hfresh _ (Nat.le_refl _)] at ho
          cases ho
        · exact hf.elim
  | refuse hp | lose hp | loseClosed hp =>
      refine (over_update_over rfl rfl).trans (or_congr_right ?_)
      rw [← offers_iff hp]
      exact (and_iff_right (by simp)).symm
  | close ho =>
      refine (over_update_same ho rfl ?_).trans (or_iff_left id).symm
      rfl
  | disconnect => exact over_update_over rfl rfl
  | drop ho =>
      refine (over_update_same ho rfl ?_).trans (or_iff_left id).symm
      rfl

theorem step_fresh (hfresh : s.Fresh) (hs : s.step a = some s') : s'.Fresh := by
  have hupdate : ∀ {o' : ℕ} {obj : Socket} (obj' : Option Socket), s.objects o' = some obj →
      ∀ o, s.made ≤ o → Function.update s.objects o' obj' o = none := by
    intro o' obj obj' ho o hle
    have hne : o ≠ o' := by
      rintro rfl
      rw [hfresh o hle] at ho
      cases ho
    rw [Function.update_of_ne hne, hfresh o hle]
  cases step_cases hs with
  | connect | accept | keep | acceptEnd | verify | clientConnects | clientLeaves | write | closed =>
      exact hfresh
  | offer =>
      intro o (hle : s.made + 1 ≤ o)
      exact (Function.update_of_ne (Nat.ne_of_gt hle) _ _).trans (hfresh o (Nat.le_of_succ_le hle))
  | refuse _ ho | lose _ ho | loseClosed _ ho => exact hupdate _ ho
  | close ho | disconnect ho | drop ho => exact hupdate _ ho

end System

/-! ## What has been closed -/

namespace Server

variable {W : Type*} {s s' : Server W} {a : HANDLE}

/-- The handle is listed in `sockets`, or has been closed. -/
def Noted (s : Server W) (a : HANDLE) : Prop := a ∈ s.sockets ∨ a ∈ s.kernel.closed

theorem Advances.noted (h : Advances s s') (ha : s.Noted a) : s'.Noted a :=
  ha.imp (h.sockets.subset ·) (h.closed.subset ·)

/-- Ending a connection closes nothing. -/
theorem Advances.disconnect (h : Advances s s') (b : HANDLE) :
    Advances s { s' with kernel := s'.kernel.disconnectNamedPipe b } where
  maxClients := h.maxClients
  running := h.running
  ovmap := h.ovmap
  sockets := h.sockets
  created := h.created
  closed := by
    show s.kernel.closed <+: (s'.kernel.disconnectNamedPipe b).closed
    rw [Kernel.closed_disconnectNamedPipe]
    exact h.closed

/-- **`close` closes what it has noted.** -/
theorem closed_close : s.close.kernel.closed = s.kernel.closed ++ s.sockets := closed_foldl_kill

theorem Noted.close (ha : s.Noted a) : a ∈ s.close.kernel.closed := by
  rw [closed_close]
  exact List.mem_append.2 ha.symm

/-- `create` begins with a `close`, and does not take back what has been closed. -/
theorem create_closed (path : List Char) (maxClients : ℕ) (replies : ℕ → Option HANDLE) :
    s.close.kernel.closed <+: (s.create path maxClients replies).2.kernel.closed :=
  (create_rule (P := fun s' ↦ s.close.kernel.closed <+: s'.kernel.closed) path maxClients replies
    (fun s' hs ↦ hs.trans (closed_close (s := { s' with created := _ }) ▸ List.prefix_append _ _))
    (fun _ _ hs _ _ ↦ hs) (fun _ hs ↦ hs) (List.prefix_refl _)).1

end Server

namespace System

variable {s s' : System} {a : Action} {o : ℕ} {obj : Socket}

/-- **No action takes back a listing or a `CloseHandle`.** -/
theorem step_advances (hov : s.server.ovmap = []) (hs : s.step a = some s') :
    Server.Advances s.server s'.server := by
  cases step_cases hs with
  | connect => exact Server.connectPhase_advances (Server.connectReply_suc s.kernel) hov
  | verify => exact Server.verifyPhase_advances _ _ _
  | @keep b o _ _ _ _ created => exact Server.settle_advances ⟨o, true, created⟩ b s.server
  | @refuse b o _ _ _ _ _ _ created => exact Server.settle_advances ⟨o, false, created⟩ b s.server
  | @lose b o _ _ _ _ _ _ created =>
      exact (Server.settle_advances ⟨o, true, created⟩ b s.server).disconnect b
  | @loseClosed b o _ _ _ _ _ _ created =>
      exact Server.settle_advances ⟨o, true, created⟩ b s.server
  | disconnect => exact (Server.Advances.refl s.server).disconnect _
  | accept | offer | write | close | closed | drop => exact .refl s.server
  | acceptEnd | clientConnects | clientLeaves =>
      exact ⟨rfl, rfl, rfl, List.prefix_refl _, List.prefix_refl _, List.prefix_refl _⟩

/-- Between two passes nothing has been taken from the pending handles. -/
theorem remaining_connect (hp : s.phase = .connect) : s.remaining = s.server.pendingSockets := by
  rw [remaining, hp]

/-- The books are right after each action. -/
theorem step_books (hbooks : s.server.Books s.remaining) (hov : s.server.ovmap = [])
    (hs : s.step a = some s') : s'.server.Books s'.remaining := by
  have hat : ∀ {p : Phase}, s.phase = p → s.server.Books (remaining { s with phase := p }) :=
    fun hp ↦ hp ▸ hbooks
  cases step_cases hs with
  | connect hp => exact Server.Books.connectPhase (hat hp) (Server.connectReply_suc s.kernel) hov
  | accept hp listener =>
      have hpending := hat hp
      cases listener with
      | true => exact hpending
      | false => exact hpending
  | offer hp => exact hat hp
  | @keep _ o _ _ hp _ created => exact Server.Books.settle (hat hp) ⟨o, true, created⟩
  | @refuse _ o _ _ hp _ _ _ created => exact Server.Books.settle (hat hp) ⟨o, false, created⟩
  | @lose _ o _ _ hp _ _ _ created =>
      have hsettled := Server.Books.settle (hat hp) ⟨o, true, created⟩
      exact hsettled.congr rfl rfl rfl fun _ ↦ Kernel.open_disconnectNamedPipe
  | @loseClosed _ o _ _ hp _ _ _ created => exact Server.Books.settle (hat hp) ⟨o, true, created⟩
  | acceptEnd hp => exact (hat hp).congr rfl rfl rfl fun _ ↦ .rfl
  | verify hp => exact Server.Books.verifyPhase (hat hp) _ _
  | clientConnects hl | clientLeaves hl =>
      exact hbooks.congr rfl rfl rfl fun _ ↦ Kernel.open_update_of_open (Option.isSome_of_mem hl)
  | write | closed | close | drop => exact hbooks
  | disconnect => exact hbooks.congr rfl rfl rfl fun _ ↦ Kernel.open_disconnectNamedPipe

/-- The handle of a socket object. -/
def handle (s : System) (o : ℕ) : Option HANDLE := (s.objects o).map Socket.socketHandle

/-- A socket object keeps its handle, and a new one has that of a client to be offered. -/
theorem step_handle (hfresh : s.Fresh) (hs : s.step a = some s') :
    s'.handle o = s.handle o ∨ (s.handle o = none ∧ ∃ b ∈ s.remaining, s'.handle o = some b) := by
  have hupdate : ∀ {o' : ℕ} {obj obj' : Socket}, s.objects o' = some obj →
      obj'.socketHandle = obj.socketHandle →
      (Function.update s.objects o' (some obj') o).map Socket.socketHandle = s.handle o := by
    intro o' obj obj' ho hsame
    by_cases heq : o = o'
    · subst heq
      rw [Function.update_self, handle, ho, Option.map_some, Option.map_some, hsame]
    · rw [Function.update_of_ne heq, handle]
  cases step_cases hs with
  | connect | accept | keep | acceptEnd | verify | clientConnects | clientLeaves | write | closed =>
      exact .inl rfl
  | @offer b rest hp =>
      by_cases heq : o = s.made
      · subst heq
        refine .inr ⟨?_, b, ?_, ?_⟩
        · rw [handle, hfresh _ (Nat.le_refl _), Option.map_none]
        · rw [remaining, hp]
          exact List.mem_cons_self
        · exact congrArg (Option.map Socket.socketHandle) (Function.update_self s.made _ s.objects)
      · exact .inl (congrArg (Option.map Socket.socketHandle) (Function.update_of_ne heq _ _))
  | refuse _ ho | lose _ ho | loseClosed _ ho => exact .inl (hupdate ho rfl)
  | close ho | disconnect ho | drop ho => exact .inl (hupdate ho rfl)

/-- The server accounts for its handles, and has noted those that sockets were made for. -/
structure Accounted (s : System) : Prop where
  books : s.server.Books s.remaining
  ovmap : s.server.ovmap = []
  fresh : s.Fresh
  noted : ∀ o b, s.handle o = some b → s.server.Noted b

theorem Accounted.step (h : s.Accounted) (hs : s.step a = some s') : s'.Accounted where
  books := step_books h.books h.ovmap hs
  ovmap := (step_advances h.ovmap hs).ovmap.trans h.ovmap
  fresh := step_fresh h.fresh hs
  noted o b hb := by
    apply (step_advances h.ovmap hs).noted
    rcases step_handle h.fresh hs with heq | ⟨-, b', hmem, heq⟩
    · exact h.noted o b (heq ▸ hb)
    · cases heq.symm.trans hb
      have hlive := (h.books.ledger.live_iff b).2
        (List.mem_append_left _ (List.mem_append_right _ hmem))
      exact .inl (h.books.listed b hlive)

/-- Between two passes the books are those of a server. -/
theorem Accounted.inv (h : s.Accounted) (hp : s.phase = .connect) : s.server.Inv where
  partitioned := by
    rw [Server.Partitioned, ← remaining_connect hp]
    exact h.books
  ovmap := h.ovmap

/-- What closes the server between two passes, and whatever it does then, leaves the
sockets with handles that have been closed. -/
theorem Accounted.replace (h : s.Accounted) (hp : s.phase = .connect) {server : Server ℕ}
    (hinv : server.Inv) (hclosed : s.server.close.kernel.closed <+: server.kernel.closed) :
    Accounted { s with server } where
  books := by
    rw [remaining_connect (s := { s with server }) hp]
    exact hinv.partitioned
  ovmap := hinv.ovmap
  fresh := h.fresh
  noted o b hb := .inr (hclosed.subset (h.noted o b hb).close)

/-- Only the watcher moves on to another phase. -/
theorem step_phase (ha : a.ofWatcher = false) (hs : s.step a = some s') : s'.phase = s.phase := by
  cases step_cases hs with
  | connect | accept | offer | keep | refuse | lose | loseClosed | acceptEnd | verify => cases ha
  | clientConnects | clientLeaves | write | close | closed | disconnect | drop => rfl

end System

namespace Host

variable {h h' h'' : Host} {l : Label} {o : ℕ} {ts us : List (Transition Host Label)}

/-- This step ends the object. -/
def Ends (o : ℕ) (t : Transition Host Label) : Prop :=
  match t.label with
  | .act a => t.src.system.Ends o a
  | .close | .closed | .closeInAccept | .create .. => False

instance (o : ℕ) : DecidablePred (Ends o)
  | ⟨h, .act a, _⟩ => inferInstanceAs (Decidable (h.system.Ends o a))
  | ⟨_, .close, _⟩ | ⟨_, .closed, _⟩ | ⟨_, .closeInAccept, _⟩ | ⟨_, .create .., _⟩ => .isFalse id

/-- **One step and one object.** -/
theorem step_over (hfresh : h.system.Fresh) (hs : h.step l = some h') :
    h'.system.Fresh ∧ (h'.system.Over o ↔ h.system.Over o ∨ Ends o ⟨h, l, h'⟩) := by
  cases step_cases hs with
  | act _ _ hsystem => exact ⟨System.step_fresh hfresh hsystem, System.step_over hfresh hsystem⟩
  | close | closed | closeInAccept | create => exact ⟨hfresh, (or_iff_left id).symm⟩

/-- **A run and one object.**  An object is over exactly when a step has ended it. -/
theorem run_over (hrun : Run step h ts h') (hfresh : h.system.Fresh) :
    h'.system.Fresh ∧ (h'.system.Over o ↔ h.system.Over o ∨ ∃ t ∈ ts, Ends o t) := by
  induction hrun with
  | nil => exact ⟨hfresh, by simp⟩
  | cons hs _ ih =>
      obtain ⟨hfresh', hover⟩ := step_over (o := o) hfresh hs
      obtain ⟨hlast, hrest⟩ := ih hfresh'
      refine ⟨hlast, ?_⟩
      rw [hrest, hover, or_assoc, List.exists_mem_cons_iff]

theorem start_fresh : start.system.Fresh := fun _ _ ↦ rfl

/-- A server in use accounts for its handles, and while it has no watcher no pass is under
way. -/
structure Kept (h : Host) : Prop where
  accounted : h.system.Accounted
  stopped : h.system.server.running = false → h.system.phase = .connect

theorem Kept.start : start.Kept where
  accounted := ⟨Server.Inv.start.partitioned, rfl, start_fresh, nofun⟩
  stopped _ := rfl

theorem Kept.step (hkept : h.Kept) (hs : h.step l = some h') : h'.Kept := by
  obtain ⟨haccounted, hstopped⟩ := hkept
  cases step_cases hs with
  | @act a system hgoes _ hsystem =>
      refine ⟨haccounted.step hsystem, fun hrunning ↦ ?_⟩
      rw [(System.step_advances haccounted.ovmap hsystem).running] at hrunning
      have hidle : a.ofWatcher = false := by
        refine Bool.eq_false_iff.2 fun hwatcher ↦ ?_
        have hgo := hgoes hwatcher
        rw [goes, hrunning, Bool.and_false, Bool.false_and] at hgo
        cases hgo
      exact (System.step_phase hidle hsystem).trans (hstopped hrunning)
  | close | closeInAccept => exact ⟨haccounted, hstopped⟩
  | closed _ hp =>
      exact ⟨haccounted.replace hp (haccounted.inv hp).close (List.prefix_refl _), fun _ ↦ hp⟩
  | create path maxClients replies _ hrunning =>
      have hp := hstopped hrunning
      have hinv := ((haccounted.inv hp).create path maxClients replies).1
      exact ⟨haccounted.replace hp hinv (Server.create_closed path maxClients replies), fun _ ↦ hp⟩

/-- A `CloseHandle` is not taken back, and a socket object keeps its handle. -/
structure Follows (h h' : Host) : Prop where
  closed : h.system.kernel.closed <+: h'.system.kernel.closed
  handle : ∀ o b, h.system.handle o = some b → h'.system.handle o = some b

theorem Follows.trans {h h' h'' : Host} (hfirst : Follows h h') (hlast : Follows h' h'') :
    Follows h h'' where
  closed := hfirst.closed.trans hlast.closed
  handle o b hb := hlast.handle o b (hfirst.handle o b hb)

theorem Kept.follows (hkept : h.Kept) (hs : h.step l = some h') : Follows h h' := by
  have hclose : h.system.server.kernel.closed <+: h.system.server.close.kernel.closed :=
    Server.closed_close ▸ List.prefix_append _ _
  cases step_cases hs with
  | act _ _ hsystem =>
      refine ⟨(System.step_advances hkept.accounted.ovmap hsystem).closed, fun o b hb ↦ ?_⟩
      rcases System.step_handle hkept.accounted.fresh hsystem with heq | ⟨hnone, -⟩
      · exact heq.trans hb
      · cases hnone.symm.trans hb
  | close | closeInAccept => exact ⟨List.prefix_refl _, fun _ _ hb ↦ hb⟩
  | closed => exact ⟨hclose, fun _ _ hb ↦ hb⟩
  | create path maxClients replies =>
      exact ⟨hclose.trans (Server.create_closed path maxClients replies), fun _ _ hb ↦ hb⟩

/-! ## What is left of a closed server -/

/-- This step writes through the socket object or disconnects it: a call of `write`, or
what a `close` or the destructor does after it has found the socket connected. -/
def Uses (o : ℕ) (t : Transition Host Label) : Prop :=
  match t.label with
  | .act (.write o') | .act (.disconnect o') => o' = o
  | .act .connect | .act (.accept _) | .act .offer | .act (.answer ..) | .act .acceptEnd
  | .act .verify | .act (.clientConnects _) | .act (.clientLeaves _) | .act (.close _)
  | .act (.drop _) | .close | .closed | .closeInAccept | .create .. => False

instance (o : ℕ) : DecidablePred (Uses o)
  | ⟨_, .act (.write o'), _⟩ | ⟨_, .act (.disconnect o'), _⟩ => inferInstanceAs (Decidable (o' = o))
  | ⟨_, .act .connect, _⟩ | ⟨_, .act (.accept _), _⟩ | ⟨_, .act .offer, _⟩
  | ⟨_, .act (.answer ..), _⟩ | ⟨_, .act .acceptEnd, _⟩ | ⟨_, .act .verify, _⟩
  | ⟨_, .act (.clientConnects _), _⟩ | ⟨_, .act (.clientLeaves _), _⟩ | ⟨_, .act (.close _), _⟩
  | ⟨_, .act (.drop _), _⟩ | ⟨_, .close, _⟩ | ⟨_, .closed, _⟩ | ⟨_, .closeInAccept, _⟩
  | ⟨_, .create .., _⟩ => .isFalse id

/-- It does so with a handle that the server has closed. -/
def UsesClosed (o : ℕ) (t : Transition Host Label) : Prop :=
  Uses o t ∧ ∃ b ∈ t.src.system.handle o, b ∈ t.src.system.kernel.closed

instance (o : ℕ) : DecidablePred (UsesClosed o) := fun t ↦ inferInstanceAs (Decidable
  (Uses o t ∧ ∃ b ∈ t.src.system.handle o, b ∈ t.src.system.kernel.closed))

/-- What `close` is to leave: of the sockets handed out before it, none is connected when
it returns, and none writes to or disconnects a handle that has been closed in what follows.
(`_disconnect` joins the watcher of a socket before it clears `is_connected`, so that one
that is not connected has no watcher.) -/
def SocketsDead (h : Host) (us : List (Transition Host Label)) : Prop :=
  (∀ o obj, h.system.objects o = some obj → obj.isConnected = false) ∧
    ∀ u ∈ us, ∀ o obj, h.system.objects o = some obj → ¬ UsesClosed o u

/-- When `close` has returned, the handles of all sockets have been closed, and stay so. -/
theorem uses_closed_iff (hkept : h.Kept) (hclosed : h.step .closed = some h')
    (hrest : Run step h' us h'') {u : Transition Host Label} (hu : u ∈ us) {obj : Socket}
    (ho : h'.system.objects o = some obj) : UsesClosed o u ↔ Uses o u := by
  refine and_iff_left_iff_imp.2 fun _ ↦ ⟨obj.socketHandle, ?_⟩
  have hhandle : h'.system.handle o = some obj.socketHandle := by rw [System.handle, ho, Option.map_some]
  have hfollows : Follows h' u.src :=
    ((hrest.invariant (I := fun x ↦ x.Kept ∧ Follows h' x) (C := fun _ ↦ True)
      (fun _ hs _ hx ↦ ⟨hx.1.step hs, hx.2.trans (hx.1.follows hs)⟩)
      ⟨hkept.step hclosed, List.prefix_refl _, fun _ _ hb ↦ hb⟩ fun _ _ ↦ trivial).2 u hu).1.2
  refine ⟨hfollows.handle o _ hhandle, hfollows.closed.subset ?_⟩
  cases step_cases hclosed with
  | closed => exact (hkept.accounted.noted o _ hhandle).close

/-- **Closing the server and its sockets.**  When `close` returns, no socket handed out is
connected, and none uses a closed handle afterwards, exactly when each has been ended
before, by a `close` of its own, its destructor or a refusal, and none is written through
or gets to the rest of a call of `close` afterwards. -/
theorem close_ends_sockets (hrun : Run step start ts h) (hclosed : h.step .closed = some h')
    (hrest : Run step h' us h'') :
    SocketsDead h' us ↔
      (∀ o obj, h'.system.objects o = some obj → ∃ t ∈ ts, Ends o t) ∧
        ∀ u ∈ us, ∀ o obj, h'.system.objects o = some obj → ¬ Uses o u := by
  have hkept : h.Kept := (hrun.invariant (I := Kept) (C := fun _ ↦ True)
    (fun _ hs _ hk ↦ hk.step hs) Kept.start fun _ _ ↦ trivial).1
  have hobjects : h'.system.objects = h.system.objects := by
    cases step_cases hclosed with
    | closed => rfl
  refine and_congr (forall₂_congr fun o obj ↦ forall_congr' fun ho ↦ ?_) (forall₂_congr fun u hu ↦
    forall₂_congr fun o obj ↦ forall_congr' fun ho ↦ not_congr (uses_closed_iff hkept hclosed hrest hu ho))
  rw [hobjects] at ho
  have hover := (run_over (o := o) hrun start_fresh).2
  rw [System.over_iff ho] at hover
  rw [hover]
  refine or_iff_right ?_
  rintro ⟨_, hnone, _⟩
  cases hnone

/-- A server is created, and a first client comes and is accepted. -/
def oneClient : List Label :=
  [.create ['p'] 100 fun n ↦ some (8 - n)] ++
    ([.clientConnects 1, .connect, .accept true, .offer, .answer true true (some 9), .acceptEnd,
      .verify] : List Action).map .act

/-- User code closes the socket before it closes the server, which it creates again.  The
next client gets the same handle, and is written to through its own socket. -/
theorem close_ends_sockets_closed : ∃ ts h h' us h'', Run step start ts h ∧
    h.step .closed = some h' ∧ Run step h' us h'' ∧
    (h'.system.objects 0).map Socket.held = some true ∧
    (∃ u ∈ us, Uses 1 u) ∧ SocketsDead h' us := by
  obtain ⟨ts, h, hrun, hclosed, hmade, hheld, hended, ⟨us, h''⟩, hlater, hquiet, hused⟩ :=
    Run.exists_of_trace step start (oneClient ++ [.act (.close 0), .act (.disconnect 0), .close])
      (fun ts h ↦ (h.closing ∧ h.system.phase = .connect) ∧ h.system.made = 1 ∧
        (h.system.objects 0).map Socket.held = some true ∧ (∃ t ∈ ts, Ends 0 t) ∧
        ∃ r, trace step h.shut (oneClient ++ [.act (.write 1)]) = some r ∧
          (∀ u ∈ r.1, ¬ Uses 0 u) ∧ ∃ u ∈ r.1, Uses 1 u)
      ⟨_, rfl, by decide, by decide, by decide, by decide, _, rfl, by decide, by decide⟩
  have hstep : h.step .closed = some h.shut := if_pos hclosed
  have hrest : Run step h.shut us h'' := Run.of_trace hlater
  have honly : ∀ o obj, h.system.objects o = some obj → o = 0 := by
    intro o obj ho
    by_contra hne
    have hnone := (run_over (o := 0) hrun start_fresh).1 o (hmade ▸ Nat.one_le_iff_ne_zero.2 hne)
    cases hnone.symm.trans ho
  refine ⟨ts, h, h.shut, us, h'', hrun, hstep, hrest, hheld, hused, ?_⟩
  refine (close_ends_sockets hrun hstep hrest).2 ⟨fun o obj ho ↦ ?_, fun u hu o obj ho ↦ ?_⟩
  · cases honly o obj ho
    exact hended
  · cases honly o obj ho
    exact hquiet u hu

/-- Nobody has closed the socket of the client.  It is connected still, and what user code
writes goes to a handle that has been closed. -/
theorem close_forgets_sockets : ∃ ts h h' us h'', Run step start ts h ∧
    h.step .closed = some h' ∧ Run step h' us h'' ∧ ¬ h'.system.kernel.Open 1 ∧
    (∃ u ∈ us, UsesClosed 0 u) ∧ ¬ SocketsDead h' us := by
  obtain ⟨ts, h, hrun, hclosed, hopen, hobject, ⟨us, h''⟩, hlater, hused⟩ :=
    Run.exists_of_trace step start (oneClient ++ [.close])
      (fun _ h ↦ (h.closing ∧ h.system.phase = .connect) ∧ ¬ h.shut.system.kernel.Open 1 ∧
        h.shut.system.objects 0 = some ⟨1, true, true, 0, some 0, 1⟩ ∧
        ∃ r, trace step h.shut [.act (.write 0)] = some r ∧ ∃ u ∈ r.1, UsesClosed 0 u)
      ⟨_, rfl, by decide, by decide, by decide, _, rfl, by decide⟩
  refine ⟨ts, h, h.shut, us, h'', hrun, if_pos hclosed, Run.of_trace hlater, hopen, hused, ?_⟩
  rintro ⟨hall, -⟩
  cases hall 0 _ hobject

end Host

end Datapath.Windows
