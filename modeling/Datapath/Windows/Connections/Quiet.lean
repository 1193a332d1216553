import Datapath.Windows.Connections.System

/-!
# What the phases of a pass do to connections

A phase of the watcher starts no connection, and an instance that it makes listen is
one of the waiting ones (`Quiet`).  Accepted clients become active, and connections
that are not dead stay so.
-/

namespace Datapath.Windows

open Datapath.Lib

/-- From one server to another, no instance has come to a new connection, and those
that listen are waiting. -/
structure Quiet {W : Type*} (s s' : Server W) : Prop where
  connection : ∀ b c, s'.kernel.connection b = some c → s.kernel.connection b = some c
  listening : (∀ b, s.kernel.pipes b = some .listening → b ∈ s.waitingSockets) →
    ∀ b, s'.kernel.pipes b = some .listening → b ∈ s'.waitingSockets

theorem Quiet.trans {W : Type*} {s s' s'' : Server W} (h : Quiet s s') (h' : Quiet s' s'') :
    Quiet s s'' where
  connection b c hc := h.connection b c (h'.connection b c hc)
  listening hall := h'.listening (h.listening hall)

namespace Server

variable {W : Type*} {s : Server W}

theorem opened_quiet {h : HANDLE} : Quiet s (s.opened h) where
  connection b c hc := by
    by_cases hb : b = h
    · subst hb
      simp [opened, enlist, Kernel.connection, Instance.connection] at hc
    · simpa [opened, enlist, Kernel.connection, hb] using hc
  listening hall b hl := by
    show b ∈ s.waitingSockets ++ [h]
    by_cases hb : b = h
    · exact List.mem_append_right _ (List.mem_singleton.2 hb)
    · refine List.mem_append_left _ (hall b ?_)
      simpa [opened, enlist, hb] using hl

theorem restock_quiet (reply : Option HANDLE) (s : Server W) : Quiet s (restock reply s) := by
  rcases restock_cases reply s with ⟨hr, -⟩ | hr | ⟨h, -, -, -, hr⟩
  · rw [hr]
    exact ⟨fun _ _ hc ↦ hc, fun hall ↦ hall⟩
  · rw [hr]
    exact ⟨fun _ _ hc ↦ hc, fun hall ↦ hall⟩
  · rw [hr]
    exact opened_quiet

theorem settle_quiet (offer : Offer W) (h : HANDLE) (s : Server W) : Quiet s (s.settle offer h) := by
  unfold settle
  split
  · obtain ⟨hc, hl⟩ := restock_quiet offer.created { s with
      onAcceptCalls := s.onAcceptCalls ++ [h]
      activeSockets := OrderedMap.insert h offer.sock s.activeSockets }
    exact ⟨hc, hl⟩
  · refine ⟨fun _ _ hc ↦ Kernel.connection_disconnectNamedPipe hc, fun hall b hl ↦ ?_⟩
    exact List.mem_append_left _ (hall b (Kernel.listening_disconnectNamedPipe hl))

theorem connection_foldl_connectNamedPipe {l : List HANDLE} {kernel : Kernel} {b : HANDLE} :
    (l.foldl Kernel.connectNamedPipe kernel).connection b = kernel.connection b :=
  foldl_keeps (Kernel.connection · b) (fun _ _ ↦ Kernel.connection_connectNamedPipe) l kernel

/-- What listens after the connect phase has listened before, or was disconnected and
is one of the handles visited. -/
theorem listening_foldl_connectNamedPipe {l : List HANDLE} {b : HANDLE} : ∀ {kernel : Kernel},
    (l.foldl Kernel.connectNamedPipe kernel).pipes b = some .listening →
      kernel.pipes b = some .listening ∨ (kernel.pipes b = some .disconnected ∧ b ∈ l) := by
  induction l with
  | nil =>
      intro kernel hl
      exact .inl hl
  | cons h rest ih =>
      intro kernel hl
      rcases kernel.pipes_connectNamedPipe h b with heq | ⟨rfl, hd, -⟩
      · rcases ih hl with hrest | ⟨hd, hb⟩
        · exact .inl (heq ▸ hrest)
        · exact .inr ⟨heq ▸ hd, List.mem_cons_of_mem _ hb⟩
      · exact .inr ⟨hd, List.mem_cons_self⟩

theorem connectReply_suc (kernel : Kernel) (h : HANDLE) : (connectReply kernel h).suc = false := by
  unfold connectReply
  split <;> rfl

/-- No client is found on an instance that listens or is disconnected. -/
theorem not_found {kernel : Kernel} {h : HANDLE}
    (hp : kernel.pipes h = some .listening ∨ kernel.pipes h = some .disconnected) :
    Found (connectReply kernel) h = false := by
  unfold Found connectReply
  rcases hp with hp | hp
  · rw [hp]
    rfl
  · rw [hp]
    rfl

/-- The instances that the connect phase makes listen stay waiting. -/
theorem connectPhase_quiet (hov : s.ovmap = []) :
    Quiet s (s.connectPhase (connectReply s.kernel)) := by
  obtain ⟨captured, heq⟩ := connectPhase_eq (connectReply_suc s.kernel) hov
  rw [heq]
  constructor
  · intro b c hc
    exact connection_foldl_connectNamedPipe.symm.trans hc
  · intro hall b hl
    show b ∈ s.waitingSockets.filter _
    rw [List.mem_filter, Bool.not_eq_true']
    rcases listening_foldl_connectNamedPipe hl with hl | ⟨hd, hb⟩
    · exact ⟨hall b hl, not_found (.inl hl)⟩
    · exact ⟨hb, not_found (.inr hd)⟩

theorem retire_quiet (h : HANDLE) (s : Server W) (toKill : List HANDLE) :
    Quiet s (retire h s toKill).1 := by
  rcases retire_cases h s toKill with ⟨-, hr⟩ | ⟨-, hr⟩
  · rw [hr]
    exact ⟨fun _ _ hc ↦ hc, fun hall b hl ↦ List.mem_append_left _ (hall b hl)⟩
  · rw [hr]
    constructor
    · intro b c hc
      exact Kernel.connection_disconnectNamedPipe (Kernel.connection_closeHandle hc)
    · intro hall b hl
      exact hall b (Kernel.listening_disconnectNamedPipe (Kernel.listening_closeHandle hl))

theorem verifyPhase_quiet (expired good : W → Bool) (s : Server W) :
    Quiet s (s.verifyPhase expired good) := by
  have hall : Quiet s (s.activeSockets.foldl (verifyOne expired good) (s, [])).1 := by
    apply foldl_rule (I := fun _ (st : Server W × List HANDLE) ↦ Quiet s st.1) ?_
      ⟨fun _ _ hc ↦ hc, fun hall ↦ hall⟩
    rintro e - ⟨s', toKill⟩ hs'
    rw [verifyOne_eq]
    split
    · exact hs'.trans (retire_quiet e.1 s' toKill)
    · exact hs'
  exact ⟨hall.connection, hall.listening⟩

/-- The verify phase keeps the entries that are not dead. -/
theorem verifyPhase_alive {expired good : W → Bool} (hnodup : (OrderedMap.keys s.activeSockets).Nodup)
    {e : HANDLE × W} (he : e ∈ s.activeSockets) (halive : Dead expired good e = false) :
    e ∈ (s.verifyPhase expired good).activeSockets := by
  obtain ⟨hmem, hkill, -⟩ := foldl_rule (f := verifyOne expired good)
    (I := fun (rest : OrderedMap HANDLE W) (st : Server W × List HANDLE) ↦
      e ∈ st.1.activeSockets ∧ e.1 ∉ st.2 ∧
        ∀ e' ∈ rest, Dead expired good e' = true → e'.1 ≠ e.1)
    (by
      rintro e' rest ⟨s', toKill⟩ ⟨hmem, hkill, hother⟩
      have hrest := fun a ha ↦ hother a (List.mem_cons_of_mem _ ha)
      rw [verifyOne_eq]
      split
      case isTrue hdead =>
        have hne : e'.1 ≠ e.1 := hother e' List.mem_cons_self hdead
        have hstays : e ∈ OrderedMap.erase e'.1 s'.activeSockets := by
          apply List.mem_filter.2
          exact ⟨hmem, by simpa using hne.symm⟩
        rcases retire_cases e'.1 s' toKill with ⟨-, hr⟩ | ⟨-, hr⟩
        · rw [hr]
          exact ⟨hstays, hkill, hrest⟩
        · rw [hr]
          refine ⟨hstays, fun hmem' ↦ ?_, hrest⟩
          rcases List.mem_append.1 hmem' with hmem' | hmem'
          · exact hkill hmem'
          · exact hne (List.mem_singleton.1 hmem').symm
      case isFalse => exact ⟨hmem, hkill, hrest⟩)
    (l := s.activeSockets) (s := (s, [])) ⟨he, List.not_mem_nil, by
      intro e' he' hdead heq
      rw [List.inj_on_of_nodup_map hnodup he' he heq, halive] at hdead
      cases hdead⟩
  exact List.mem_filter.2 ⟨hmem, by simpa using hkill⟩

/-- Every open instance listens and is waiting. -/
def AllListen (s : Server W) : Prop :=
  ∀ b i, s.kernel.pipes b = some i → i = .listening ∧ b ∈ s.waitingSockets

/-- Nothing is open in a server that has been closed. -/
theorem Inv.close_allListen (h : s.Inv) : s.close.AllListen := by
  intro b i hi
  have hopen : s.close.kernel.Open b := Option.isSome_of_mem hi
  exact absurd ((h.close.partitioned.ledger.live_iff b).1 hopen) List.not_mem_nil

/-- A new instance listens, and waits. -/
theorem AllListen.opened (h : s.AllListen) {a : HANDLE} : (s.opened a).AllListen := by
  intro b i hi
  show i = .listening ∧ b ∈ s.waitingSockets ++ [a]
  by_cases heq : b = a
  · subst heq
    simp only [Server.opened, enlist, Function.update_self, Option.some.injEq] at hi
    exact ⟨hi.symm, List.mem_append_right _ (List.mem_singleton.2 rfl)⟩
  · simp only [Server.opened, enlist, Function.update_of_ne heq] at hi
    exact ⟨(h b i hi).1, List.mem_append_left _ (h b i hi).2⟩

/-- All instances of a server that has just been created listen. -/
theorem Inv.create_allListen (h : s.Inv) (path : List Char) (maxClients : ℕ)
    (replies : ℕ → Option HANDLE) : (s.create path maxClients replies).2.AllListen := by
  have hprepare : (s.prepare path maxClients).Inv := h.close.congr rfl rfl rfl rfl rfl rfl
  refine (create_rule (P := fun s ↦ s.Inv ∧ s.AllListen) path maxClients replies ?_ ?_ ?_
    ⟨hprepare, h.close_allListen⟩).1.2
  · intro s hs
    have hfailed : Inv { s with created := s.created ++ [invalidHandleValue] } :=
      hs.1.congr rfl rfl rfl rfl rfl rfl
    exact ⟨hfailed.close, hfailed.close_allListen⟩
  · intro s a hs _ hnew
    exact ⟨⟨Books.opened hs.1.partitioned hnew, hs.1.ovmap⟩, hs.2.opened⟩
  · intro s hs
    exact ⟨hs.1.congr rfl rfl rfl rfl rfl rfl, hs.2⟩

/-- What is active stays active while clients are offered, and an accepted client
becomes active. -/
theorem settle_active_mem {h : HANDLE} {rest : List HANDLE} (hbooks : s.Books (h :: rest))
    (offer : Offer W) : (∀ e ∈ s.activeSockets, e ∈ (s.settle offer h).activeSockets) ∧
      (offer.accept = true → (h, offer.sock) ∈ (s.settle offer h).activeSockets) := by
  unfold settle
  by_cases haccept : offer.accept = true
  · rw [if_pos haccept, restock_active]
    have hperm := OrderedMap.insert_perm (v := offer.sock) hbooks.not_active
    exact ⟨fun e he ↦ hperm.mem_iff.2 (List.mem_cons_of_mem _ he),
      fun _ ↦ hperm.mem_iff.2 List.mem_cons_self⟩
  · rw [if_neg haccept]
    exact ⟨fun e he ↦ he, fun ha ↦ absurd ha haccept⟩

end Server

end Datapath.Windows
