import Datapath.Windows.Connections.Quiet

/-!
# Whose connection a socket acts on

A socket that user code holds and that is connected is the socket of an active entry,
or of the client just being offered, so its handle is not waiting, its instance does
not listen, and no other client can have come to it.  That is the invariant `Inv`,
and it holds in every run.  What it does not speak about are a socket that is not
connected any more, through which `write` still writes, and a call of `close` that
found the socket connected and has been overtaken by the server
(`acts_on_own_connection`).
-/

namespace Datapath.Windows

open Datapath.Lib

namespace System

/-! ## The invariant -/

/-- The pending handles that the accept phase has not dealt with. -/
def remaining (s : System) : List HANDLE :=
  match s.phase with
  | .offering rest => rest
  | .offered h _ rest => h :: rest
  | .connect | .accept | .verify => s.server.pendingSockets

/-- An object has an active entry, or is being offered. -/
def Placed (s : System) (o : ℕ) (obj : Socket) : Prop :=
  (obj.socketHandle, o) ∈ s.server.activeSockets ∨
    ∃ rest, s.phase = .offered obj.socketHandle o rest

/-- What is known of an object and the connection on its handle: if that is as old as
the object, it is its own; once the object is not connected, it is a later one; while
the object is held and connected, it is not. -/
structure Sound (s : System) (o : ℕ) (obj : Socket) : Prop where
  since : obj.since ≤ s.connections
  old : ∀ c, obj.connection = some c → c < obj.since
  own : ∀ c, s.kernel.connection obj.socketHandle = some c → c < obj.since → obj.connection = some c
  ended : obj.isConnected = false →
    ∀ c, s.kernel.connection obj.socketHandle = some c → obj.since ≤ c
  current : obj.held = true → obj.isConnected = true →
    ∀ c, s.kernel.connection obj.socketHandle = some c → c < obj.since
  placed : obj.held = true → obj.isConnected = true → s.Placed o obj

/-- What every state of the system satisfies. -/
structure Inv (s : System) : Prop where
  books : s.server.Books s.remaining
  ovmap : s.server.ovmap = []
  listening : ∀ b, s.kernel.pipes b = some .listening → b ∈ s.server.waitingSockets
  numbered : ∀ b c, s.kernel.connection b = some c → c < s.connections
  sound : ∀ o obj, s.objects o = some obj → s.Sound o obj
  offered : ∀ h o rest, s.phase = .offered h o rest →
    ∃ obj, s.objects o = some obj ∧ obj.socketHandle = h ∧ obj.held = true

variable {s s' : System} {o : ℕ} {obj : Socket}

/-- An object stays sound when no instance comes to a new connection. -/
theorem Sound.mono (h : s.Sound o obj) (hn : s'.connections = s.connections)
    (hc : ∀ b c, s'.kernel.connection b = some c → s.kernel.connection b = some c)
    (hp : s.Placed o obj → s'.Placed o obj) : s'.Sound o obj where
  since := hn ▸ h.since
  old := h.old
  own c hc' := h.own c (hc _ c hc')
  ended hf c hc' := h.ended hf c (hc _ c hc')
  current hh hconn c hc' := h.current hh hconn c (hc _ c hc')
  placed hh hconn := hp (h.placed hh hconn)

/-- A socket that is closed stays sound, if it was not connected before or its handle
has no connection any more. -/
theorem Sound.closed (h : s.Sound o obj) {n : ℕ} {held : Bool}
    (hn : s'.connections = s.connections)
    (hc : ∀ b c, s'.kernel.connection b = some c → s.kernel.connection b = some c)
    (hclosed : obj.isConnected = false ∨ s'.kernel.connection obj.socketHandle = none) :
    s'.Sound o { obj with isConnected := false, closing := n, held } where
  since := hn ▸ h.since
  old := h.old
  own c hc' := h.own c (hc _ c hc')
  ended _ c hc' := by
    rcases hclosed with hf | hnone
    · exact h.ended hf c (hc _ c hc')
    · rw [hnone] at hc'
      cases hc'
  current _ hf := by cases hf
  placed _ hf := by cases hf

/-- The handle of a socket that is held and connected is not waiting. -/
theorem Sound.not_waiting (h : s.Sound o obj) (hbooks : s.server.Books s.remaining)
    (hh : obj.held = true) (hconn : obj.isConnected = true) :
    obj.socketHandle ∉ s.server.waitingSockets := by
  intro hw
  have hnodup := hbooks.ledger.nodup
  rw [List.append_assoc, List.nodup_append] at hnodup
  rcases h.placed hh hconn with hactive | ⟨rest, hphase⟩
  · refine hnodup.2.2 _ hw _ (List.mem_append_right _ (List.mem_map_of_mem hactive)) rfl
  · refine hnodup.2.2 _ hw obj.socketHandle (List.mem_append_left _ ?_) rfl
    unfold remaining
    rw [hphase]
    exact List.mem_cons_self

/-- The books of a system whose phase is known. -/
theorem Inv.books_at (h : s.Inv) {p : Phase} (hp : s.phase = p) :
    s.server.Books (remaining { s with phase := p }) := hp ▸ h.books

/-! ## The steps -/

/-- A step of the watcher that makes no object keeps the invariant. -/
theorem Inv.of_quiet (h : s.Inv) (server : Server ℕ) (phase : Phase)
    (hq : Quiet s.server server) (hov : server.ovmap = s.server.ovmap)
    (hbooks : server.Books (remaining { s with server, phase }))
    (hactive : ∀ o obj, s.objects o = some obj → obj.held = true → obj.isConnected = true →
      s.Placed o obj → Placed { s with server, phase } o obj)
    (hoffered : ∀ h o rest, phase = .offered h o rest → s.phase = .offered h o rest) :
    Inv { s with server, phase } where
  books := hbooks
  ovmap := hov.trans h.ovmap
  listening := hq.listening h.listening
  numbered b c hc := h.numbered b c (hq.connection b c hc)
  sound o obj ho :=
    { since := (h.sound o obj ho).since
      old := (h.sound o obj ho).old
      own c hc := (h.sound o obj ho).own c (hq.connection _ c hc)
      ended hf c hc := (h.sound o obj ho).ended hf c (hq.connection _ c hc)
      current hh hconn c hc := (h.sound o obj ho).current hh hconn c (hq.connection _ c hc)
      placed hh hconn := hactive o obj ho hh hconn ((h.sound o obj ho).placed hh hconn) }
  offered b o rest hp := h.offered b o rest (hoffered b o rest hp)

/-- Outside of an offer, a placed object has an active entry. -/
theorem Placed.active (h : s.Placed o obj) (hp : ∀ b o rest, s.phase ≠ .offered b o rest) :
    (obj.socketHandle, o) ∈ s.server.activeSockets :=
  h.resolve_right fun ⟨rest, hr⟩ ↦ hp _ _ rest hr

theorem Inv.connect (h : s.Inv) (hp : s.phase = .connect) : Inv { s with
    phase := .accept, server := s.server.connectPhase (connectReply s.kernel) } := by
  obtain ⟨captured, heq⟩ := Server.connectPhase_eq (Server.connectReply_suc s.kernel) h.ovmap
  have hbooks : s.server.Partitioned := h.books_at hp
  refine h.of_quiet _ _ (Server.connectPhase_quiet h.ovmap) (by rw [heq])
    (Server.Books.connectPhase hbooks (Server.connectReply_suc s.kernel) h.ovmap) ?_ nofun
  intro o obj _ _ _ hplaced
  left
  rw [heq]
  exact hplaced.active (by rw [hp]; nofun)

theorem Inv.accept (h : s.Inv) (hp : s.phase = .accept) (listener : Bool) : Inv { s with
    phase := if listener then .offering s.server.pendingSockets else .verify } := by
  have hbooks : s.server.Partitioned := h.books_at hp
  refine h.of_quiet _ _ ⟨fun _ _ hc ↦ hc, fun hall ↦ hall⟩ rfl ?_ ?_ ?_
  · cases listener with
    | true => exact hbooks
    | false => exact hbooks
  · intro o obj _ _ _ hplaced
    exact .inl (hplaced.active (by rw [hp]; nofun))
  · intro b o rest hr
    cases listener with
    | true => cases hr
    | false => cases hr

theorem Inv.acceptEnd (h : s.Inv) (hp : s.phase = .offering []) : Inv { s with
    phase := .verify, server := { s.server with pendingSockets := [] } } := by
  have hbooks : s.server.Books [] := h.books_at hp
  refine h.of_quiet _ _ ⟨fun _ _ hc ↦ hc, fun hall ↦ hall⟩ rfl
    (hbooks.congr rfl rfl rfl fun _ ↦ .rfl) ?_ nofun
  intro o obj _ _ _ hplaced
  exact .inl (hplaced.active (by rw [hp]; nofun))

theorem Inv.verify (h : s.Inv) (hp : s.phase = .verify) : Inv { s with
    phase := .connect, server := s.server.verifyPhase s.expired s.good } := by
  have hbooks : s.server.Partitioned := h.books_at hp
  refine h.of_quiet _ _ (Server.verifyPhase_quiet _ _ _) (Server.verifyPhase_advances _ _ _).ovmap
    (Server.Books.verifyPhase hbooks _ _) ?_ nofun
  intro o obj ho hh hconn hplaced
  refine .inl (Server.verifyPhase_alive (List.nodup_append.1 hbooks.ledger.nodup).2.1
    (hplaced.active (by rw [hp]; nofun)) ?_)
  simp [Server.Dead, expired, good, ho, hh, hconn]

/-- A new object is offered. -/
theorem Inv.offer (h : s.Inv) {b : HANDLE} {rest : List HANDLE} (hp : s.phase = .offering (b :: rest)) :
    Inv { s with
      phase := .offered b s.made rest
      objects := Function.update s.objects s.made (some {
        socketHandle := b, connection := s.kernel.connection b, since := s.connections })
      made := s.made + 1 } := by
  refine ⟨h.books_at hp, h.ovmap, h.listening, h.numbered, ?_, ?_⟩
  · intro o obj ho
    by_cases hnew : o = s.made
    · subst hnew
      simp only [Function.update_self, Option.some.injEq] at ho
      subst ho
      exact {
        since := Nat.le_refl _
        old := fun c hc ↦ h.numbered _ c hc
        own := fun c hc _ ↦ hc
        ended := nofun
        current := fun _ _ c hc ↦ h.numbered _ c hc
        placed := fun _ _ ↦ .inr ⟨rest, rfl⟩ }
    · simp only [Function.update_of_ne hnew] at ho
      refine (h.sound o obj ho).mono rfl (fun _ _ hc ↦ hc) fun hplaced ↦ .inl ?_
      exact hplaced.active (by rw [hp]; nofun)
  · intro b' o' rest' hphase
    cases hphase
    exact ⟨_, Function.update_self _ _ _, rfl, rfl⟩

/-- Changing an object that stays sound keeps the invariant. -/
theorem Inv.setObject (h : s.Inv) {obj' : Socket} (ho : s.objects o = some obj)
    (hhandle : obj'.socketHandle = obj.socketHandle) (hsound : s.Sound o obj')
    (hheld : (∃ b rest, s.phase = .offered b o rest) → obj'.held = true) :
    (s.setObject o obj').Inv where
  books := h.books
  ovmap := h.ovmap
  listening := h.listening
  numbered := h.numbered
  sound o' obj'' ho'' := by
    have hmove : ∀ {p q}, s.Sound p q → (s.setObject o obj').Sound p q := fun hs ↦
      hs.mono rfl (fun _ _ hc ↦ hc) id
    by_cases heq : o' = o
    · subst heq
      simp only [System.setObject, Function.update_self, Option.some.injEq] at ho''
      subst ho''
      exact hmove hsound
    · simp only [System.setObject, Function.update_of_ne heq] at ho''
      exact hmove (h.sound o' obj'' ho'')
  offered b o' rest hp := by
    obtain ⟨obj'', ho'', hb, hh⟩ := h.offered b o' rest hp
    by_cases heq : o' = o
    · subst heq
      rw [ho] at ho''
      cases ho''
      exact ⟨obj', Function.update_self _ _ _, hhandle.trans hb, hheld ⟨b, rest, hp⟩⟩
    · exact ⟨obj'', by simp only [System.setObject, Function.update_of_ne heq]; exact ho'', hb, hh⟩

/-- Disconnecting an instance keeps the invariant. -/
theorem Inv.setKernel (h : s.Inv) (b : HANDLE) :
    (s.setKernel (s.kernel.disconnectNamedPipe b)).Inv :=
  h.of_quiet { s.server with kernel := s.kernel.disconnectNamedPipe b } s.phase
    ⟨fun _ _ hc ↦ Kernel.connection_disconnectNamedPipe hc,
      fun hall b hl ↦ hall b (Kernel.listening_disconnectNamedPipe hl)⟩
    rfl (h.books.congr rfl rfl rfl fun _ ↦ Kernel.open_disconnectNamedPipe)
    (fun _ _ _ _ _ hp ↦ hp) (fun _ _ _ hp ↦ hp)

/-- The end of a round in which the socket is closed keeps the invariant. -/
theorem Inv.closeOffered (h : s.Inv) {b : HANDLE} {rest : List HANDLE}
    (hp : s.phase = .offered b o rest) (ho : s.objects o = some obj) (server : Server ℕ) {held : Bool}
    (hq : Quiet s.server server) (hov : server.ovmap = s.server.ovmap) (hbooks : server.Books rest)
    (hactive : ∀ e ∈ s.server.activeSockets, e ∈ server.activeSockets)
    (hclosed : obj.isConnected = false ∨ server.kernel.connection obj.socketHandle = none) :
    Inv (System.setObject { s with phase := .offering rest, server } o
      { obj with isConnected := false, held }) where
  books := hbooks
  ovmap := hov.trans h.ovmap
  listening := hq.listening h.listening
  numbered b' c hc := h.numbered b' c (hq.connection b' c hc)
  sound o' obj' ho' := by
    by_cases heq : o' = o
    · subst heq
      simp only [System.setObject, Function.update_self, Option.some.injEq] at ho'
      subst ho'
      exact (h.sound o' obj ho).closed rfl hq.connection hclosed
    · simp only [System.setObject, Function.update_of_ne heq] at ho'
      refine (h.sound o' obj' ho').mono rfl hq.connection fun hplaced ↦ .inl (hactive _ ?_)
      refine hplaced.resolve_right fun ⟨rest', hr⟩ ↦ heq ?_
      rw [hp] at hr
      cases hr
      rfl
  offered := nofun

/-- The client is accepted, and user code keeps its socket. -/
theorem Inv.keep (h : s.Inv) {b : HANDLE} {rest : List HANDLE} (hp : s.phase = .offered b o rest)
    (created : Option HANDLE) :
    Inv { s with phase := .offering rest, server := s.server.settle ⟨o, true, created⟩ b } := by
  have hbooks : s.server.Books (b :: rest) := h.books_at hp
  obtain ⟨hkept, hnew⟩ := Server.settle_active_mem hbooks ⟨o, true, created⟩
  refine h.of_quiet _ _ (Server.settle_quiet _ _ _) (Server.settle_advances _ _ _).ovmap
    (hbooks.settle _) ?_ nofun
  intro o' obj' _ _ _ hplaced
  rcases hplaced with hactive | ⟨rest', hr⟩
  · exact .inl (hkept _ hactive)
  · rw [hp] at hr
    cases hr
    exact .inl (hnew rfl)

/-- The client is refused: `sock->close()` has disconnected its pipe. -/
theorem Inv.refuse (h : s.Inv) {b : HANDLE} {rest : List HANDLE} (hp : s.phase = .offered b o rest)
    (ho : s.objects o = some obj) (keep : Bool) (created : Option HANDLE) :
    Inv (System.setObject { s with
      phase := .offering rest, server := s.server.settle ⟨o, false, created⟩ b } o
      { obj with isConnected := false, held := keep }) := by
  have hbooks : s.server.Books (b :: rest) := h.books_at hp
  obtain ⟨obj', ho', hb, -⟩ := h.offered b o rest hp
  cases ho.symm.trans ho'
  refine h.closeOffered hp ho _ (Server.settle_quiet _ _ _) (Server.settle_advances _ _ _).ovmap
    (hbooks.settle _) (Server.settle_active_mem hbooks _).1 (.inr ?_)
  rw [hb]
  exact Kernel.connection_disconnectNamedPipe_self

/-- The client is accepted and its socket not kept: the destructor disconnects the pipe. -/
theorem Inv.lose (h : s.Inv) {b : HANDLE} {rest : List HANDLE} (hp : s.phase = .offered b o rest)
    (ho : s.objects o = some obj) (created : Option HANDLE) :
    Inv (System.setObject { s with
      phase := .offering rest
      server := { s.server.settle ⟨o, true, created⟩ b with
        kernel := (s.server.settle ⟨o, true, created⟩ b).kernel.disconnectNamedPipe b } } o
      { obj with isConnected := false, held := false }) := by
  have hbooks : s.server.Books (b :: rest) := h.books_at hp
  have hq := Server.settle_quiet ⟨o, true, created⟩ b s.server
  obtain ⟨obj', ho', hb, -⟩ := h.offered b o rest hp
  cases ho.symm.trans ho'
  refine h.closeOffered hp ho { s.server.settle ⟨o, true, created⟩ b with
    kernel := (s.server.settle ⟨o, true, created⟩ b).kernel.disconnectNamedPipe b }
    ⟨fun _ _ hc ↦ ?_, fun hall b' hl ↦ ?_⟩ (Server.settle_advances _ _ _).ovmap ?_
    (Server.settle_active_mem hbooks ⟨o, true, created⟩).1 (.inr ?_)
  · exact hq.connection _ _ (Kernel.connection_disconnectNamedPipe hc)
  · exact hq.listening hall b' (Kernel.listening_disconnectNamedPipe hl)
  · exact (hbooks.settle _).congr rfl rfl rfl fun _ ↦ Kernel.open_disconnectNamedPipe
  · rw [hb]
    exact Kernel.connection_disconnectNamedPipe_self

/-- The same, and the socket was closed before. -/
theorem Inv.loseClosed (h : s.Inv) {b : HANDLE} {rest : List HANDLE} (hp : s.phase = .offered b o rest)
    (ho : s.objects o = some obj) (hconn : obj.isConnected = false) (created : Option HANDLE) :
    Inv (System.setObject { s with
      phase := .offering rest, server := s.server.settle ⟨o, true, created⟩ b } o
      { obj with isConnected := false, held := false }) := by
  have hbooks : s.server.Books (b :: rest) := h.books_at hp
  exact h.closeOffered hp ho _ (Server.settle_quiet _ _ _) (Server.settle_advances _ _ _).ovmap
    (hbooks.settle _) (Server.settle_active_mem hbooks _).1 (.inl hconn)

/-- A client comes to an instance that listens. -/
theorem Inv.clientConnects (h : s.Inv) {b : HANDLE} (hl : s.kernel.pipes b = some .listening) :
    Inv { s.setKernel { s.kernel with
      pipes := Function.update s.kernel.pipes b (some (.connected s.connections)) } with
      connections := s.connections + 1 } := by
  have hwaiting := h.listening b hl
  have hconn : ∀ b' c, Kernel.connection { s.kernel with
      pipes := Function.update s.kernel.pipes b (some (.connected s.connections)) } b' = some c →
      (b' = b ∧ s.connections = c) ∨ (b' ≠ b ∧ s.kernel.connection b' = some c) := fun b' c hc ↦
    (Kernel.connection_update hc).imp_left fun ⟨heq, hnew⟩ ↦ ⟨heq, Option.some.inj hnew⟩
  refine ⟨?_, h.ovmap, ?_, ?_, ?_, h.offered⟩
  · exact h.books.congr rfl rfl rfl fun _ ↦ Kernel.open_update_of_open (Option.isSome_of_mem hl)
  · intro b' hl'
    by_cases heq : b' = b
    · rw [heq]
      exact hwaiting
    · exact h.listening b' ((Function.update_of_ne heq _ _).symm.trans hl')
  · intro b' c hc
    rcases hconn b' c hc with ⟨-, rfl⟩ | ⟨-, hc⟩
    · exact Nat.lt_succ_self _
    · exact Nat.lt_succ_of_lt (h.numbered b' c hc)
  · intro o obj ho
    have hsound := h.sound o obj ho
    refine ⟨Nat.le_succ_of_le hsound.since, hsound.old, ?_, ?_, ?_, hsound.placed⟩
    · intro c hc hlt
      rcases hconn _ c hc with ⟨-, rfl⟩ | ⟨-, hc⟩
      · exact absurd hsound.since (Nat.not_le.2 hlt)
      · exact hsound.own c hc hlt
    · intro hf c hc
      rcases hconn _ c hc with ⟨-, rfl⟩ | ⟨-, hc⟩
      · exact hsound.since
      · exact hsound.ended hf c hc
    · intro hh hconnected c hc
      rcases hconn _ c hc with ⟨heq, -⟩ | ⟨-, hc⟩
      · exact absurd (heq ▸ hwaiting) (hsound.not_waiting h.books hh hconnected)
      · exact hsound.current hh hconnected c hc

/-- A client leaves; its connection stays on the instance. -/
theorem Inv.clientLeaves (h : s.Inv) {b : HANDLE} {c : ℕ}
    (hl : s.kernel.pipes b = some (.connected c)) : Inv (s.setKernel { s.kernel with
      pipes := Function.update s.kernel.pipes b (some (.gone c)) }) := by
  refine h.of_quiet { s.server with kernel := { s.kernel with
    pipes := Function.update s.kernel.pipes b (some (.gone c)) } } s.phase
    ⟨fun _ _ hc ↦ Kernel.connection_leave hl hc, ?_⟩ rfl ?_
    (fun _ _ _ _ _ hp ↦ hp) (fun _ _ _ hp ↦ hp)
  · intro hall b' hl'
    by_cases heq : b' = b
    · subst heq
      simp only [Function.update_self, reduceCtorEq, Option.some.injEq] at hl'
    · exact hall b' ((Function.update_of_ne heq _ _).symm.trans hl')
  · exact h.books.congr rfl rfl rfl fun _ ↦ Kernel.open_update_of_open (Option.isSome_of_mem hl)

/-- **Every step keeps the invariant.** -/
theorem Inv.step (h : s.Inv) {l : Action} (hs : s.step l = some s') : s'.Inv := by
  cases step_cases hs with
  | connect hp => exact h.connect hp
  | accept hp listener => exact h.accept hp listener
  | acceptEnd hp => exact h.acceptEnd hp
  | verify hp => exact h.verify hp
  | offer hp => exact h.offer hp
  | keep hp _ created => exact h.keep hp created
  | refuse hp ho keep _ created => exact h.refuse hp ho keep created
  | lose hp ho _ _ created => exact h.lose hp ho created
  | loseClosed hp ho _ hconn created => exact h.loseClosed hp ho hconn created
  | clientConnects hl => exact h.clientConnects hl
  | clientLeaves hl => exact h.clientLeaves hl
  | write => exact h
  | closed => exact h
  | @close o obj ho hh _ =>
      have hsound := h.sound o obj ho
      exact h.setObject ho rfl ⟨hsound.since, hsound.old, hsound.own, hsound.ended,
        hsound.current, hsound.placed⟩ fun _ ↦ hh
  | @disconnect o n obj ho _ =>
      refine (h.setKernel obj.socketHandle).setObject ho rfl ?_ ?_
      · exact (h.sound o obj ho).closed rfl
          (fun _ _ hc ↦ Kernel.connection_disconnectNamedPipe hc)
          (.inr Kernel.connection_disconnectNamedPipe_self)
      · rintro ⟨b, rest, hp⟩
        obtain ⟨obj', ho', -, hh⟩ := h.offered b o rest hp
        rw [ho] at ho'
        cases ho'
        exact hh
  | @drop o obj ho _ _ hoffers =>
      have hsound := h.sound o obj ho
      refine h.setObject ho rfl ⟨hsound.since, hsound.old, hsound.own, hsound.ended, nofun, nofun⟩ ?_
      rintro ⟨b, rest, hp⟩
      simp [hp, Phase.offers] at hoffers

/-- A server that has just been created has no clients. -/
theorem Inv.start {path : List Char} {maxClients : ℕ} {replies : ℕ → Option HANDLE}
    {server : Server ℕ} (hcreate : Server.start.create path maxClients replies = (.success, server)) :
    (start server).Inv := by
  have hinv := ((Server.Inv.start (W := ℕ)).create path maxClients replies).1
  have hlisten := (Server.Inv.start (W := ℕ)).create_allListen path maxClients replies
  rw [hcreate] at hinv hlisten
  refine ⟨hinv.partitioned, hinv.ovmap, ?_, ?_, nofun, nofun⟩
  · intro b hl
    exact (hlisten b _ hl).2
  · intro b c hc
    obtain ⟨i, hi, hic⟩ := Option.bind_eq_some_iff.1 hc
    rw [(hlisten b i hi).1] at hic
    cases hic

/-! ## Runs -/

/-- Whatever a step writes or disconnects through an object belongs to the connection
the object was made for. -/
def ActsOnOwn (t : Transition System Action) : Prop :=
  ∀ e ∈ t.src.effects t.label, ∃ obj, t.src.objects e.1 = some obj ∧ obj.connection = some e.2

/-- This step is no `write` through a socket that is not connected any more while a
client is connected on its handle, and no late `DisconnectNamedPipe` of a `close`,
which comes when a client younger than the socket is on its handle. -/
def Guarded (t : Transition System Action) : Prop :=
  match t.label with
  | .write o => ∀ obj ∈ t.src.objects o, obj.isConnected = false →
      ¬ t.src.kernel.HasClient obj.socketHandle
  | .disconnect o => ∀ obj ∈ t.src.objects o,
      ∀ c ∈ t.src.kernel.connection obj.socketHandle, c < obj.since
  | .connect | .accept _ | .offer | .answer .. | .acceptEnd | .verify | .clientConnects _
  | .clientLeaves _ | .close _ | .drop _ => True

instance : DecidablePred Guarded
  | ⟨s, .write o, _⟩ => inferInstanceAs (Decidable (∀ obj ∈ s.objects o,
      obj.isConnected = false → ¬ s.kernel.HasClient obj.socketHandle))
  | ⟨s, .disconnect o, _⟩ => inferInstanceAs (Decidable (∀ obj ∈ s.objects o,
      ∀ c ∈ s.kernel.connection obj.socketHandle, c < obj.since))
  | ⟨_, .connect, _⟩ | ⟨_, .accept _, _⟩ | ⟨_, .offer, _⟩ | ⟨_, .answer .., _⟩
  | ⟨_, .acceptEnd, _⟩ | ⟨_, .verify, _⟩ | ⟨_, .clientConnects _, _⟩ | ⟨_, .clientLeaves _, _⟩
  | ⟨_, .close _, _⟩ | ⟨_, .drop _, _⟩ => .isTrue trivial

theorem Sound.own_iff (h : s.Sound o obj) {c : ℕ}
    (hc : s.kernel.connection obj.socketHandle = some c) :
    obj.connection = some c ↔ c < obj.since :=
  ⟨fun hown ↦ h.old c hown, fun hlt ↦ h.own c hc hlt⟩

/-- The socket that is being offered acts on its own connection. -/
theorem Inv.answer_own (h : s.Inv) {accept keep : Bool} {created : Option HANDLE} :
    ∀ e ∈ s.effects (.answer accept keep created),
      ∃ obj, s.objects e.1 = some obj ∧ obj.connection = some e.2 := by
  intro e he
  simp only [effects] at he
  split at he
  case h_2 => cases he
  case h_1 b o rest hp =>
    obtain ⟨obj, ho, rfl, hh⟩ := h.offered b o rest hp
    rw [ho] at he
    dsimp only at he
    split at he
    case isTrue hconn =>
      obtain ⟨c, hc, rfl⟩ := List.mem_map.1 he
      have hc' := Option.mem_toList.1 hc
      have hsound := h.sound o obj ho
      exact ⟨obj, ho, (hsound.own_iff hc').2 (hsound.current hh hconn.1 c hc')⟩
    case isFalse => cases he

/-- A write goes to the own connection exactly when the socket is connected or no
client is there. -/
theorem Inv.write_iff (h : s.Inv) (ho : s.objects o = some obj) (hh : obj.held = true) :
    (∀ e ∈ s.effects (.write o), ∃ obj, s.objects e.1 = some obj ∧ obj.connection = some e.2) ↔
      (obj.isConnected = false → ¬ s.kernel.HasClient obj.socketHandle) := by
  have hsound := h.sound o obj ho
  have hconnection : ∀ {c}, s.kernel.pipes obj.socketHandle = some (.connected c) →
      s.kernel.connection obj.socketHandle = some c := by
    intro c hp
    rw [Kernel.connection, hp]
    rfl
  constructor
  · rintro hown hf ⟨c, hp⟩
    obtain ⟨obj', ho', hc⟩ := hown (o, c) (by simp [effects, ho, hp])
    rw [ho] at ho'
    cases ho'
    exact absurd (hsound.old c hc) (Nat.not_lt.2 (hsound.ended hf c (hconnection hp)))
  · intro hguard e he
    simp only [effects, ho] at he
    split at he
    case h_1 c hp =>
      cases List.mem_singleton.1 he
      refine ⟨obj, ho, (hsound.own_iff (hconnection hp)).2 ?_⟩
      cases hconn : obj.isConnected with
      | true => exact hsound.current hh hconn c (hconnection hp)
      | false => exact absurd ⟨c, hp⟩ (hguard hconn)
    case h_2 => cases he

/-- A disconnect ends the own connection exactly when no later one is there. -/
theorem Inv.disconnect_iff (h : s.Inv) (ho : s.objects o = some obj) :
    (∀ e ∈ s.effects (.disconnect o), ∃ obj, s.objects e.1 = some obj ∧ obj.connection = some e.2) ↔
      ∀ c ∈ s.kernel.connection obj.socketHandle, c < obj.since := by
  have hsound := h.sound o obj ho
  constructor
  · intro hown c hc
    obtain ⟨obj', ho', hc'⟩ := hown (o, c) (by
      simp only [effects, ho]
      exact List.mem_map.2 ⟨c, Option.mem_toList.2 hc, rfl⟩)
    rw [ho] at ho'
    cases ho'
    exact (hsound.own_iff hc).1 hc'
  · intro hguard e he
    simp only [effects, ho] at he
    obtain ⟨c, hc, rfl⟩ := List.mem_map.1 he
    have hc' := Option.mem_toList.1 hc
    exact ⟨obj, ho, (hsound.own_iff hc').2 (hguard c hc')⟩

/-- A step acts on own connections only exactly when it is guarded. -/
theorem Inv.actsOnOwn_iff {t : Transition System Action}
    (hs : t.src.step t.label = some t.dst) (h : t.src.Inv) : ActsOnOwn t ↔ Guarded t := by
  obtain ⟨s, l, s'⟩ := t
  have hstep : Stepped s l s' := step_cases hs
  cases hstep with
  | keep | refuse | lose | loseClosed => exact iff_of_true h.answer_own trivial
  | write ho hh =>
      refine (h.write_iff ho hh).trans ⟨fun hg obj' ho' ↦ ?_, fun hg ↦ hg _ ho⟩
      cases ho.symm.trans ho'
      exact hg
  | disconnect ho =>
      refine (h.disconnect_iff ho).trans ⟨fun hg obj' ho' ↦ ?_, fun hg ↦ hg _ ho⟩
      cases ho.symm.trans ho'
      exact hg
  | connect | accept | offer | acceptEnd | verify | clientConnects | clientLeaves | close | closed | drop =>
      exact iff_of_true nofun trivial

/-- **Whose connection a socket acts on.**  In a run, everything written or
disconnected through a socket object goes to the connection the object was made for
exactly when no `write` goes through a socket that is not connected any more while its
handle has a client, and no `close` that found its socket connected is so late that a
later client is on the handle. -/
theorem acts_on_own_connection {path : List Char} {maxClients : ℕ} {replies : ℕ → Option HANDLE}
    {server : Server ℕ} (hcreate : Server.start.create path maxClients replies = (.success, server))
    {ts : List (Transition System Action)} (hrun : Run step (start server) ts s) :
    (∀ t ∈ ts, ActsOnOwn t) ↔ ∀ t ∈ ts, Guarded t :=
  hrun.forall_iff (H := fun _ ↦ True) (fun _ hs _ _ h ↦ h.step hs)
    (fun _ hs _ h ↦ h.actsOnOwn_iff hs) (Inv.start hcreate) fun _ _ ↦ trivial

/-! ## A server with one client after the other -/

/-- The server that `create` makes with the handles 1 to 8. -/
def eight : Server ℕ := (Server.start.create ['p'] 100 fun n ↦ some (8 - n)).2

theorem eight_create :
    Server.start.create ['p'] 100 (fun n ↦ some (8 - n)) = (.success, eight) := rfl

/-- One pass of the watcher that offers one client, whom `on_accept` accepts and whose
socket user code keeps. -/
def acceptOne : List Action :=
  [.connect, .accept true, .offer, .answer true true (some 9), .acceptEnd, .verify]

/-- One pass of the watcher without clients to offer. -/
def idlePass : List Action := [.connect, .accept true, .acceptEnd, .verify]

/-- A first client comes to the handle 1, is written to, and is refused, but user code keeps
its socket; the handle is put back and listens again, and a second client comes to it. -/
def twoClients : List Action :=
  [.clientConnects 1, .connect, .accept true, .offer, .write 0, .answer false true none, .acceptEnd,
    .verify] ++ idlePass ++ [.clientConnects 1]

/-- The second client is written to through its own socket. -/
theorem acts_on_own_connection_two : ∃ ts s, Run step (start eight) ts s ∧
    s.connections = 2 ∧ (∃ t ∈ ts, t.src.effects t.label = [(1, 1)]) ∧ ∀ t ∈ ts, ActsOnOwn t := by
  obtain ⟨ts, s, hrun, hguarded, hconnections, heffect⟩ := Run.exists_of_trace step (start eight)
    (twoClients ++ acceptOne ++ [.write 1])
    (fun ts s ↦ (∀ t ∈ ts, Guarded t) ∧ s.connections = 2 ∧
      ∃ t ∈ ts, t.src.effects t.label = [(1, 1)]) ⟨_, rfl, by decide⟩
  exact ⟨ts, s, hrun, hconnections, heffect, (acts_on_own_connection eight_create hrun).2 hguarded⟩

/-- The socket of the first client has been closed by the server but is kept, and a write
through it reaches the second client. -/
theorem write_reaches_later_client : ∃ ts s, Run step (start eight) ts s ∧
    (∃ t ∈ ts, t.label = .write 0 ∧ t.src.effects t.label = [(0, 1)] ∧
      (t.src.objects 0).bind Socket.connection = some 0) ∧ ¬ ∀ t ∈ ts, ActsOnOwn t := by
  obtain ⟨ts, s, hrun, t, ht, hl, heffect, hown⟩ := Run.exists_of_trace step (start eight)
    (twoClients ++ [.write 0])
    (fun ts _ ↦ ∃ t ∈ ts, t.label = .write 0 ∧ t.src.effects t.label = [(0, 1)] ∧
      (t.src.objects 0).bind Socket.connection = some 0) ⟨_, rfl, by decide⟩
  refine ⟨ts, s, hrun, ⟨t, ht, hl, heffect, hown⟩, fun hall ↦ ?_⟩
  obtain ⟨obj, ho, hc⟩ := hall t ht (0, 1) (by rw [heffect]; exact List.mem_singleton.2 rfl)
  rw [ho, Option.bind_some, hc] at hown
  cases hown

end System

end Datapath.Windows
