import Datapath.Windows.Connections.Ownership

/-!
# Clients that leave before they are offered

A client may connect to a waiting instance and close its end before the watcher looks.
`ConnectNamedPipe` then reports `ERROR_NO_DATA`, and does so until someone disconnects
the instance.  The connect phase knows two answers, that a client is there and that none
is, and takes this one for the second: the handle stays in `waiting_sockets`, although no
client can ever connect to it again (`Inv.gone_stays`).

Only a `close` of a socket object that was made for the handle earlier can still
disconnect it (`early_leavers`).
-/

namespace Datapath.Windows

open Datapath.Lib

variable {b : HANDLE} {c : ℕ}

/-! ## What the phases do to an instance whose client is gone -/

namespace Server

variable {W : Type*} {s : Server W}

/-- What follows an offer leaves the other open instances alone. -/
theorem settle_pipes {h : HANDLE} (hb : b ≠ h) (hopen : s.kernel.Open b) (offer : Offer W) :
    (s.settle offer h).kernel.pipes b = s.kernel.pipes b := by
  unfold settle
  split
  · rcases restock_cases offer.created { s with
      onAcceptCalls := s.onAcceptCalls ++ [h]
      activeSockets := OrderedMap.insert h offer.sock s.activeSockets } with
      ⟨hr, -⟩ | hr | ⟨a, -, hnew, -, hr⟩
    · rw [hr]
    · rw [hr]
    · rw [hr]
      have hne : b ≠ a := fun heq ↦ hnew (heq ▸ hopen)
      exact Function.update_of_ne hne _ _
  · exact Kernel.pipes_disconnectNamedPipe_of_ne hb

theorem retire_pipes {h : HANDLE} (hb : b ≠ h) (s : Server W) (toKill : List HANDLE) :
    (retire h s toKill).1.kernel.pipes b = s.kernel.pipes b := by
  rcases retire_cases h s toKill with ⟨-, hr⟩ | ⟨-, hr⟩
  · rw [hr]
  · rw [hr]
    exact (Kernel.pipes_closeHandle_of_ne hb).trans (Kernel.pipes_disconnectNamedPipe_of_ne hb)

theorem retire_waiting (h : HANDLE) (s : Server W) (toKill : List HANDLE) :
    s.waitingSockets <+: (retire h s toKill).1.waitingSockets := by
  rcases retire_cases h s toKill with ⟨-, hr⟩ | ⟨-, hr⟩
  · rw [hr]
    exact List.prefix_append _ _
  · exact (congrArg (fun st : Server W × List HANDLE ↦ st.1.waitingSockets) hr).symm ▸ List.prefix_refl _

/-- The verify phase leaves instances alone that are not active, and handles waiting. -/
theorem verifyPhase_idle (expired good : W → Bool) (hidle : b ∉ OrderedMap.keys s.activeSockets) :
    (s.verifyPhase expired good).kernel.pipes b = s.kernel.pipes b ∧
      s.waitingSockets <+: (s.verifyPhase expired good).waitingSockets := by
  have hfold := foldl_rule (f := verifyOne expired good)
    (I := fun (rest : OrderedMap HANDLE W) (st : Server W × List HANDLE) ↦
      (∀ e ∈ rest, b ≠ e.1) ∧ st.1.kernel.pipes b = s.kernel.pipes b ∧
        s.waitingSockets <+: st.1.waitingSockets)
    (by
      rintro e rest ⟨s', toKill⟩ ⟨hother, hpipes, hwaiting⟩
      obtain ⟨hne, hrest⟩ := List.forall_mem_cons.1 hother
      rw [verifyOne_eq]
      split
      · exact ⟨hrest, (retire_pipes hne s' toKill).trans hpipes,
          hwaiting.trans (retire_waiting e.1 s' toKill)⟩
      · exact ⟨hrest, hpipes, hwaiting⟩)
    (l := s.activeSockets) (s := (s, []))
    ⟨fun e he heq ↦ hidle (heq ▸ List.mem_map_of_mem he), rfl, List.prefix_refl _⟩
  exact hfold.2

/-- The connect phase leaves a waiting instance whose client is gone where it is. -/
theorem connectPhase_gone (hov : s.ovmap = []) (hw : b ∈ s.waitingSockets)
    (hp : s.kernel.pipes b = some (.gone c)) :
    b ∈ (s.connectPhase (connectReply s.kernel)).waitingSockets ∧
      (s.connectPhase (connectReply s.kernel)).kernel.pipes b = some (.gone c) := by
  obtain ⟨captured, heq⟩ := connectPhase_eq (connectReply_suc s.kernel) hov
  rw [heq]
  constructor
  · refine List.mem_filter.2 ⟨hw, ?_⟩
    simp [Found, connectReply, hp, errorNoData, errorPipeConnected]
  · exact foldl_rule (I := fun _ (kernel : Kernel) ↦ kernel.pipes b = some (.gone c))
      (fun h _ kernel hk ↦ Kernel.pipes_connectNamedPipe_of_ne hk (by rintro ⟨⟩)) (l := s.waitingSockets) hp

end Server

namespace System

variable {s s' : System} {l : Action} {ts : List (Transition System Action)}

/-! ## What a step does to an instance whose client is gone -/

/-- The handle is waiting, and the client of its connection `c` is gone. -/
def Stuck (b : HANDLE) (c : ℕ) (s : System) : Prop :=
  b ∈ s.server.waitingSockets ∧ s.kernel.pipes b = some (.gone c)

/-- The waiting handles whose clients are gone, with the connections of these. -/
def leavers (s : System) : List (HANDLE × ℕ) :=
  s.server.waitingSockets.flatMap fun b ↦ match s.kernel.pipes b with
    | some (.gone c) => [(b, c)]
    | some .listening | some (.connected _) | some .disconnected | none => []

theorem mem_leavers : (b, c) ∈ s.leavers ↔ s.Stuck b c := by
  unfold leavers
  rw [List.mem_flatMap]
  constructor
  · rintro ⟨a, hw, hmem⟩
    split at hmem
    case h_1 c' hp =>
      cases List.mem_singleton.1 hmem
      exact ⟨hw, hp⟩
    all_goals cases hmem
  · rintro ⟨hw, hp⟩
    refine ⟨b, hw, ?_⟩
    rw [hp]
    exact List.mem_singleton.2 rfl

/-- This step is a `close` that disconnects the instance behind the handle `b`. -/
def Disconnects (b : HANDLE) (t : Transition System Action) : Prop :=
  match t.label with
  | .disconnect o => ∃ obj ∈ t.src.objects o, obj.socketHandle = b
  | .connect | .accept _ | .offer | .answer .. | .acceptEnd | .verify | .clientConnects _
  | .clientLeaves _ | .write _ | .close _ | .drop _ => False

instance : DecidablePred (Disconnects b)
  | ⟨s, .disconnect o, _⟩ => inferInstanceAs (Decidable (∃ obj ∈ s.objects o, obj.socketHandle = b))
  | ⟨_, .connect, _⟩ | ⟨_, .accept _, _⟩ | ⟨_, .offer, _⟩ | ⟨_, .answer .., _⟩
  | ⟨_, .acceptEnd, _⟩ | ⟨_, .verify, _⟩ | ⟨_, .clientConnects _, _⟩ | ⟨_, .clientLeaves _, _⟩
  | ⟨_, .write _, _⟩ | ⟨_, .close _, _⟩ | ⟨_, .drop _, _⟩ => .isFalse id

/-- A waiting handle is neither pending nor active. -/
theorem Inv.waiting_elsewhere (h : s.Inv) (hw : b ∈ s.server.waitingSockets) :
    b ∉ s.remaining ∧ b ∉ OrderedMap.keys s.server.activeSockets := by
  have hnodup := h.books.ledger.nodup
  rw [List.append_assoc, List.nodup_append] at hnodup
  exact ⟨fun hr ↦ hnodup.2.2 b hw b (List.mem_append_left _ hr) rfl,
    fun ha ↦ hnodup.2.2 b hw b (List.mem_append_right _ ha) rfl⟩

/-- **A waiting instance whose client is gone** stays as it is in every step that is not
a `close` of a socket with its handle. -/
theorem Inv.gone_stays (h : s.Inv) (hstuck : s.Stuck b c) (hs : s.step l = some s')
    (hother : ¬ Disconnects b ⟨s, l, s'⟩) : s'.Stuck b c := by
  obtain ⟨hw, hp⟩ := hstuck
  obtain ⟨hremaining, hidle⟩ := h.waiting_elsewhere hw
  have hsettle : ∀ {a o rest} {offer : Offer ℕ}, s.phase = .offered a o rest →
      b ≠ a ∧ b ∈ (s.server.settle offer a).waitingSockets ∧
        (s.server.settle offer a).kernel.pipes b = some (.gone c) := by
    intro a o rest offer hphase
    have hne : b ≠ a := by
      rintro rfl
      refine hremaining ?_
      unfold remaining
      rw [hphase]
      exact List.mem_cons_self
    exact ⟨hne, (Server.settle_waiting offer a s.server).subset hw,
      (Server.settle_pipes hne (Option.isSome_of_mem hp) offer).trans hp⟩
  cases step_cases hs with
  | connect => exact Server.connectPhase_gone h.ovmap hw hp
  | accept | offer | acceptEnd | write | close | closed | drop => exact ⟨hw, hp⟩
  | keep hphase | refuse hphase | loseClosed hphase => exact (hsettle hphase).2
  | lose hphase =>
      obtain ⟨hne, hw', hp'⟩ := hsettle hphase
      exact ⟨hw', (Kernel.pipes_disconnectNamedPipe_of_ne hne).trans hp'⟩
  | verify =>
      obtain ⟨hpipes, hwaiting⟩ := Server.verifyPhase_idle s.expired s.good hidle
      exact ⟨hwaiting.subset hw, hpipes.trans hp⟩
  | @clientConnects a hl =>
      have hne : b ≠ a := by
        rintro rfl
        rw [hp] at hl
        cases hl
      exact ⟨hw, (Function.update_of_ne hne _ _).trans hp⟩
  | @clientLeaves a c' hl =>
      have hne : b ≠ a := by
        rintro rfl
        rw [hp] at hl
        cases hl
      exact ⟨hw, (Function.update_of_ne hne _ _).trans hp⟩
  | @disconnect o n obj ho =>
      have hne : b ≠ obj.socketHandle := fun heq ↦ hother ⟨obj, ho, heq.symm⟩
      exact ⟨hw, (Kernel.pipes_disconnectNamedPipe_of_ne hne).trans hp⟩

/-- Unless it is disconnected, it stays so in a run. -/
theorem Inv.gone_stays_run (h : s.Inv) (hstuck : s.Stuck b c) (hrun : Run System.step s ts s')
    (hother : ∀ t ∈ ts, ¬ Disconnects b t) : s'.Stuck b c :=
  (hrun.invariant (I := fun s ↦ s.Inv ∧ s.Stuck b c) (C := fun t ↦ ¬ Disconnects b t)
    (fun _ hs hd hi ↦ ⟨hi.1.step hs, hi.1.gone_stays hi.2 hs hd⟩) ⟨h, hstuck⟩ hother).1.2

/-! ## What a step does to a connection that has ended -/

/-- The connection `c` has been, and is not the connection of the instance any more. -/
def Ended (b : HANDLE) (c : ℕ) (s : System) : Prop :=
  c < s.connections ∧ s.kernel.connection b ≠ some c

/-- Connections that have ended do not come back. -/
theorem Inv.ended_stays (h : s.Inv) (hended : s.Ended b c) (hs : s.step l = some s') : s'.Ended b c := by
  obtain ⟨hold, hne⟩ := hended
  cases step_cases hs with
  | connect => exact ⟨hold, fun hc ↦ hne ((Server.connectPhase_quiet h.ovmap).connection b c hc)⟩
  | accept | offer | acceptEnd | write | close | closed | drop => exact ⟨hold, hne⟩
  | keep | refuse | loseClosed =>
      exact ⟨hold, fun hc ↦ hne ((Server.settle_quiet _ _ s.server).connection b c hc)⟩
  | lose => exact ⟨hold, fun hc ↦ hne ((Server.settle_quiet _ _ s.server).connection b c
      (Kernel.connection_disconnectNamedPipe hc))⟩
  | verify => exact ⟨hold, fun hc ↦ hne ((Server.verifyPhase_quiet _ _ s.server).connection b c hc)⟩
  | clientConnects =>
      refine ⟨Nat.lt_succ_of_lt hold, fun hc ↦ ?_⟩
      rcases Kernel.connection_update hc with ⟨-, hnew⟩ | ⟨-, hc⟩
      · exact absurd (Option.some.inj hnew) (Nat.ne_of_gt hold)
      · exact hne hc
  | clientLeaves hl => exact ⟨hold, fun hc ↦ hne (Kernel.connection_leave hl hc)⟩
  | disconnect => exact ⟨hold, fun hc ↦ hne (Kernel.connection_disconnectNamedPipe hc)⟩

/-- The instance that a `close` disconnects has no connection afterwards. -/
theorem Disconnects.ended {t : Transition System Action} (hd : Disconnects b t)
    (hs : t.src.step t.label = some t.dst) (hold : c < t.src.connections) : t.dst.Ended b c := by
  obtain ⟨s, l, s'⟩ := t
  change s.step l = some s' at hs
  show s'.Ended b c
  cases step_cases hs with
  | disconnect ho =>
      obtain ⟨obj, ho', rfl⟩ := hd
      cases ho.symm.trans ho'
      refine ⟨hold, fun hc ↦ ?_⟩
      exact absurd (Kernel.connection_disconnectNamedPipe_self.symm.trans hc) nofun
  | _ => exact hd.elim

/-- Connections are counted up. -/
theorem step_connections (hs : s.step l = some s') : s.connections ≤ s'.connections := by
  cases step_cases hs with
  | clientConnects => exact Nat.le_succ _
  | _ => exact Nat.le_refl _

/-- A run in which the instance is disconnected ends the connection. -/
theorem Inv.ended_of_mem (h : s.Inv) (hold : c < s.connections) (hrun : Run System.step s ts s')
    {t : Transition System Action} (ht : t ∈ ts) (hd : Disconnects b t) : s'.Ended b c := by
  induction hrun with
  | nil => cases ht
  | @cons s₀ s₁ s₂ l ts hs hrest ih =>
      rcases List.mem_cons.1 ht with rfl | ht
      · have hended : s₁.Ended b c := hd.ended hs hold
        exact (hrest.invariant (I := fun s ↦ s.Inv ∧ s.Ended b c) (C := fun _ ↦ True)
          (fun _ hs _ hi ↦ ⟨hi.1.step hs, hi.1.ended_stays hi.2 hs⟩) ⟨h.step hs, hended⟩
          fun _ _ ↦ trivial).1.2
      · exact ih (h.step hs) (Nat.lt_of_lt_of_le hold (step_connections hs)) ht

/-! ## Passes -/

/-- From a state of a run to a later one, no waiting handle stays behind whose client was
gone, exactly when each of their instances is disconnected by a `close`. -/
theorem Inv.leavers_iff (h : s.Inv) (hrun : Run System.step s ts s') :
    (∀ b c, s.Stuck b c → b ∈ s'.server.waitingSockets → s'.kernel.connection b ≠ some c) ↔
      ∀ b c, s.Stuck b c → ∃ t ∈ ts, Disconnects b t := by
  constructor
  · intro hfree b c hstuck
    by_contra hnone
    obtain ⟨hw, hp⟩ := h.gone_stays_run hstuck hrun fun t ht hd ↦ hnone ⟨t, ht, hd⟩
    refine hfree b c hstuck hw ?_
    rw [Kernel.connection, hp]
    rfl
  · intro hdisconnected b c hstuck _
    obtain ⟨t, ht, hd⟩ := hdisconnected b c hstuck
    have hold : c < s.connections := by
      refine h.numbered b c ?_
      rw [Kernel.connection, hstuck.2]
      rfl
    exact (h.ended_of_mem hold hrun ht hd).2

/-- A pass of the watcher in a run: its connect phase, its verify phase, and what happens
between the two. -/
structure Pass where
  first : Transition System Action
  rest : List (Transition System Action)
  last : Transition System Action

/-- The passes of a run. -/
def passes : List (Transition System Action) → List Pass
  | [] => []
  | t :: ts =>
      if t.label = .connect then
        match ts.dropWhile (·.label ≠ .verify) with
        | last :: _ => ⟨t, ts.takeWhile (·.label ≠ .verify), last⟩ :: passes ts
        | [] => passes ts
      else passes ts

theorem passes_infix {p : Pass} (hp : p ∈ passes ts) :
    p.first.label = .connect ∧ p.last.label = .verify ∧ p.first :: p.rest ++ [p.last] <:+: ts := by
  induction ts with
  | nil => cases hp
  | cons t ts ih =>
      have hlater : p ∈ passes ts → p.first.label = .connect ∧ p.last.label = .verify ∧
          p.first :: p.rest ++ [p.last] <:+: t :: ts := fun hmem ↦
        (ih hmem).imp_right (.imp_right fun hin ↦ hin.trans (List.suffix_cons t ts).isInfix)
      rw [passes] at hp
      split at hp
      case isFalse => exact hlater hp
      case isTrue hconnect =>
        split at hp
        case h_2 => exact hlater hp
        case h_1 last after hdrop =>
          rcases List.mem_cons.1 hp with rfl | hmem
          · have hverify := List.head?_dropWhile_not (·.label ≠ Action.verify) ts
            rw [hdrop] at hverify
            refine ⟨hconnect, by simpa using hverify, [], after, ?_⟩
            rw [List.nil_append, List.cons_append, List.cons_append, List.append_assoc,
              List.singleton_append, ← hdrop, List.takeWhile_append_dropWhile]
          · exact hlater hmem

/-- No waiting handle is left at the end of the pass whose client was gone when the
connect phase looked, and which has not been disconnected since. -/
def NoneLeft (p : Pass) : Prop :=
  ∀ e ∈ p.first.src.leavers, e.1 ∈ p.last.dst.server.waitingSockets →
    p.last.dst.kernel.connection e.1 ≠ some e.2

instance : DecidablePred NoneLeft := fun p ↦
  inferInstanceAs (Decidable (∀ e ∈ p.first.src.leavers, e.1 ∈ p.last.dst.server.waitingSockets →
    p.last.dst.kernel.connection e.1 ≠ some e.2))

/-- Every waiting handle whose client is gone when the connect phase looks is
disconnected during the pass, by a `close` of a socket object made for it earlier. -/
def AllDisconnected (p : Pass) : Prop :=
  ∀ e ∈ p.first.src.leavers, ∃ t ∈ p.rest, Disconnects e.1 t

instance : DecidablePred AllDisconnected := fun p ↦
  inferInstanceAs (Decidable (∀ e ∈ p.first.src.leavers, ∃ t ∈ p.rest, Disconnects e.1 t))

theorem Inv.noneLeft_iff (h : s.Inv) (hrun : Run System.step s ts s') {p : Pass} (hp : p ∈ passes ts) :
    NoneLeft p ↔ AllDisconnected p := by
  obtain ⟨hfirst, hlast, before, after, rfl⟩ := passes_infix hp
  obtain ⟨m, hupto, -⟩ := hrun.split
  obtain ⟨m', hbefore, hmid⟩ := hupto.split
  have hinv : m'.Inv := (hbefore.invariant (I := Inv) (C := fun _ ↦ True)
    (fun _ hs _ h ↦ h.step hs) h fun _ _ ↦ trivial).1
  have hsrc : p.first.src = m' := hmid.src_eq
  have hdst : p.last.dst = m := hmid.dst_eq
  have hiff := hinv.leavers_iff hmid
  rw [← hsrc, ← hdst] at hiff
  constructor
  · rintro hnone ⟨b, c⟩ he
    obtain ⟨t, ht, hd⟩ := hiff.1 (fun b c hs ↦ hnone (b, c) (mem_leavers.2 hs)) b c (mem_leavers.1 he)
    simp only [List.cons_append, List.mem_cons, List.mem_append, List.not_mem_nil, or_false] at ht
    rcases ht with rfl | ht | rfl
    · rw [Disconnects, hfirst] at hd
      exact hd.elim
    · exact ⟨t, ht, hd⟩
    · rw [Disconnects, hlast] at hd
      exact hd.elim
  · rintro hall ⟨b, c⟩ he
    refine hiff.2 (fun b c hs ↦ ?_) b c (mem_leavers.1 he)
    obtain ⟨t, ht, hd⟩ := hall (b, c) (mem_leavers.2 hs)
    exact ⟨t, List.mem_append_left _ (List.mem_cons_of_mem _ ht), hd⟩

/-- **Clients that leave early.**  In a run, no pass leaves behind a waiting handle whose
client was gone when the connect phase looked, and which has not been disconnected
since, exactly when in each pass every handle of that kind is disconnected by a late
`close` of a socket object.  The watcher itself does nothing about them. -/
theorem early_leavers {path : List Char} {maxClients : ℕ} {replies : ℕ → Option HANDLE}
    {server : Server ℕ} (hcreate : Server.start.create path maxClients replies = (.success, server))
    (hrun : Run step (start server) ts s) :
    (∀ p ∈ passes ts, NoneLeft p) ↔ ∀ p ∈ passes ts, AllDisconnected p :=
  forall₂_congr fun _ hp ↦ (Inv.start hcreate).noneLeft_iff hrun hp

/-- A client comes to the handle 1 and is refused, while another thread has begun to close
the socket, and the handle is put back.  A second client comes and leaves, and the other
thread runs on in the middle of the next pass. -/
theorem early_leavers_late : ∃ ts s, Run step (start eight) ts s ∧
    (∃ p ∈ passes ts, p.first.src.leavers = [(1, 1)]) ∧ ∀ p ∈ passes ts, NoneLeft p := by
  obtain ⟨ts, s, hrun, hleavers, hall⟩ := Run.exists_of_trace step (start eight)
    ([.clientConnects 1, .connect, .accept true, .offer, .close 0, .answer false true none, .acceptEnd,
      .verify] ++ idlePass ++ [.clientConnects 1, .clientLeaves 1, .connect, .disconnect 0, .accept true,
      .acceptEnd, .verify])
    (fun ts _ ↦ (∃ p ∈ passes ts, p.first.src.leavers = [(1, 1)]) ∧ ∀ p ∈ passes ts, AllDisconnected p)
    ⟨_, rfl, by decide⟩
  exact ⟨ts, s, hrun, hleavers, (early_leavers eight_create hrun).2 hall⟩

/-- A client comes to the handle 1 and leaves, and the handle is waiting after the pass,
as it is after every later one. -/
theorem early_leaver_stays : ∃ ts s, Run step (start eight) ts s ∧
    (∃ p ∈ passes ts, p.first.src.leavers = [(1, 0)]) ∧ ¬ ∀ p ∈ passes ts, NoneLeft p :=
  Run.exists_of_trace step (start eight)
    ([.clientConnects 1, .clientLeaves 1] ++ idlePass)
    (fun ts _ ↦ (∃ p ∈ passes ts, p.first.src.leavers = [(1, 0)]) ∧ ¬ ∀ p ∈ passes ts, NoneLeft p)
    ⟨_, rfl, by decide⟩

end System

end Datapath.Windows
