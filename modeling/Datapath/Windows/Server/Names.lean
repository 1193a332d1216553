import Datapath.Windows.Server.Backlog

/-!
# Whose a pipe name is

Servers in different processes may be given the same path.  `create` asks for the first
instance of its pipe with `FILE_FLAG_FIRST_PIPE_INSTANCE`, and `CreateNamedPipeW` does not
give it that while there is an instance of the same name.  For the seven others, and for
those that the watcher opens later, there is no such flag.  What keeps two servers apart
then is that a server that opens another instance has one already (`name_exclusive`): the
verify phase never closes the last of them.

The loop of `create` is one step a round here, so that those of two servers may alternate.
A pass is one step.  Each server has the handles of its own process.
-/

namespace Datapath.Windows

open Datapath.Lib

/-! ## What a pass does to the open instances -/

namespace Server

variable {W : Type*} {s : Server W}

/-- The server has an instance. -/
def HasInstance (s : Server W) : Prop := ∃ h, s.kernel.Open h

theorem Books.hasInstance {rest : List HANDLE} (h : s.Books rest)
    (hsome : 0 < s.waitingSockets.length + rest.length) : s.HasInstance := by
  rw [← List.length_append] at hsome
  obtain ⟨a, ha⟩ := List.exists_mem_of_length_pos hsome
  exact ⟨a, (h.ledger.live_iff a).2 (List.mem_append_left _ ha)⟩

theorem not_hasInstance_close (h : s.Inv) : ¬ s.close.HasInstance := by
  rintro ⟨b, hb⟩
  obtain ⟨hout, hopen⟩ := open_foldl_kill.1 hb
  exact hout (h.partitioned.listed b hopen)

/-- Without an answer of the operating system there is no handle. -/
theorem createSocket_none (s : Server W) : (s.createSocket none).1 = invalidHandleValue := by
  rcases s.createSocket_cases none with hc | ⟨a, -, -, hc⟩
  · rw [hc]
  · unfold createSocket at hc ⊢
    cases makePipePath s.path with
    | none => rfl
    | some path => rfl

/-- Restocking closes nothing. -/
theorem restock_keeps (reply : Option HANDLE) (s : Server W) :
    (restock reply s).path = s.path ∧ ∀ b, s.kernel.Open b → (restock reply s).kernel.Open b := by
  rcases restock_cases reply s with ⟨hr, -⟩ | hr | ⟨a, -, -, -, hr⟩
  · rw [hr]
    exact ⟨rfl, fun _ hb ↦ hb⟩
  · rw [hr]
    exact ⟨rfl, fun _ hb ↦ hb⟩
  · rw [hr]
    exact ⟨rfl, fun _ hb ↦ open_opened.2 (.inr hb)⟩

theorem settle_keeps (offer : Offer W) (a : HANDLE) (s : Server W) :
    (s.settle offer a).path = s.path ∧
      ∀ b, s.kernel.Open b → (s.settle offer a).kernel.Open b := by
  unfold settle
  split
  · exact restock_keeps offer.created { s with
      onAcceptCalls := s.onAcceptCalls ++ [a]
      activeSockets := OrderedMap.insert a offer.sock s.activeSockets }
  · exact ⟨rfl, fun _ hb ↦ Kernel.open_disconnectNamedPipe.2 hb⟩

theorem acceptPhase_keeps (onAccept : Bool) (offer : HANDLE → Offer W) (s : Server W) :
    (s.acceptPhase onAccept offer).path = s.path ∧
      ∀ b, s.kernel.Open b → (s.acceptPhase onAccept offer).kernel.Open b := by
  cases onAccept with
  | false => exact ⟨rfl, fun _ hb ↦ hb⟩
  | true =>
      rw [acceptPhase_eq]
      have hall : (s.settleAll offer s.pendingSockets).path = s.path ∧
          ∀ b, s.kernel.Open b → (s.settleAll offer s.pendingSockets).kernel.Open b := by
        refine foldl_rule (I := fun _ (s' : Server W) ↦ s'.path = s.path ∧
          ∀ b, s.kernel.Open b → s'.kernel.Open b) ?_ ⟨rfl, fun _ hb ↦ hb⟩
        rintro a - s' ⟨hpath, hopen⟩
        obtain ⟨hpath', hopen'⟩ := settle_keeps (offer a) a s'
        exact ⟨hpath'.trans hpath, fun b hb ↦ hopen' b (hopen b hb)⟩
      exact hall

theorem connectPhase_keeps {connect : HANDLE → ConnectReply}
    (hzero : ∀ h, (connect h).suc = false) (hov : s.ovmap = []) :
    (s.connectPhase connect).path = s.path ∧
      ∀ b, s.kernel.Open b → (s.connectPhase connect).kernel.Open b := by
  obtain ⟨captured, heq⟩ := connectPhase_eq hzero hov
  rw [heq]
  exact ⟨rfl, fun _ hb ↦ open_foldl_connectNamedPipe.2 hb⟩

/-- The verify phase closes an instance only while there is a full backlog of others. -/
theorem verifyPhase_keeps (hbooks : s.Partitioned) (h : s.HasInstance) (expired good : W → Bool) :
    (s.verifyPhase expired good).path = s.path ∧ (s.verifyPhase expired good).HasInstance := by
  have hall := foldl_rule (f := verifyOne expired good)
    (I := fun entries (st : Server W × List HANDLE) ↦
      Verifying entries st ∧ st.1.path = s.path ∧ st.1.HasInstance)
    (fun e entries st hv ↦ ⟨hv.1.step expired good, by
      obtain ⟨s', toKill⟩ := st
      obtain ⟨hv, hpath, hsome⟩ := hv
      rw [verifyOne_eq]
      split
      · have hafter := Books.retire hv.books (hv.active e List.mem_cons_self) toKill
        rcases retire_cases e.1 s' toKill with ⟨-, hr⟩ | ⟨hfull, hr⟩
        · rw [hr]
          exact ⟨hpath, hsome⟩
        · rw [hr] at hafter ⊢
          exact ⟨hpath, Books.hasInstance hafter (Nat.lt_of_lt_of_le (by decide) hfull)⟩
      · exact ⟨hpath, hsome⟩⟩)
    (l := s.activeSockets) (s := (s, []))
    ⟨⟨hbooks, fun e he ↦ List.mem_map_of_mem he, (List.nodup_append.1 hbooks.ledger.nodup).2.1,
      List.forall_mem_nil _⟩, rfl, h⟩
  exact hall.2

/-- A pass changes no path and never closes the last instance. -/
theorem verified_keeps {i : PassInput W} (hinv : s.Inv) (hzero : i.ConnectsReturnZero)
    (h : s.HasInstance) : (s.verified i).path = s.path ∧ (s.verified i).HasInstance := by
  obtain ⟨hpath₁, hopen₁⟩ := connectPhase_keeps hzero hinv.ovmap
  obtain ⟨hpath₂, hopen₂⟩ := acceptPhase_keeps i.onAccept i.offer (s.connected i)
  obtain ⟨b, hb⟩ := h
  obtain ⟨hpath₃, hsome⟩ := verifyPhase_keeps (hinv.offered hzero).partitioned
    ⟨b, hopen₂ b (hopen₁ b hb)⟩ i.expired i.good
  exact ⟨hpath₃.trans (hpath₂.trans hpath₁), hsome⟩

end Server

/-! ## Servers in their processes -/

/-- Servers, each in a process of its own.  A server is in the loop of `create` while it has
a number of instances to go. -/
structure Hosts (ι W : Type*) where
  server : ι → Server W := fun _ ↦ Server.start
  toGo : ι → Option ℕ := fun _ ↦ none
  /-- The names that the instances behind open handles were created under. -/
  names : ι → HANDLE → Option (List Char) := fun _ _ ↦ none

namespace Hosts

variable {ι W : Type*} [DecidableEq ι]

/-- What can happen next. -/
inductive Label (ι W : Type*) where
  /-- `create` is called, and comes to its loop. -/
  | begin (i : ι) (path : List Char) (maxClients : ℕ)
  /-- A round of that loop. -/
  | spawn (i : ι) (reply : Option HANDLE)
  /-- The loop ends, and `create` starts the watcher. -/
  | started (i : ι)
  | pass (i : ι) (input : PassInput W)
  | close (i : ι)

/-- Change a server.  What it has opened bears the name of its pipe. -/
def set (σ : Hosts ι W) (i : ι) (s : Server W) (toGo : Option ℕ) : Hosts ι W where
  server := Function.update σ.server i s
  toGo := Function.update σ.toGo i toGo
  names := Function.update σ.names i fun h ↦
    if (σ.server i).kernel.Open h then σ.names i h else makePipePath s.path

/-- One step.  A server is not closed by another thread in the middle of `create`. -/
def step (σ : Hosts ι W) : Label ι W → Option (Hosts ι W)
  | .begin i path maxClients =>
      match σ.toGo i with
      | some _ => none
      | none => some (σ.set i ((σ.server i).prepare path maxClients) (some winBacklogNum))
  | .spawn i reply =>
      match σ.toGo i with
      | none | some 0 => none
      | some (n + 1) =>
          match (σ.server i).createSocket reply with
          | (handle, s) =>
              if handle = invalidHandleValue then some (σ.set i s.close none)
              else some (σ.set i (s.enlist handle) (some n))
  | .started i =>
      match σ.toGo i with
      | some 0 => some (σ.set i { σ.server i with running := true } none)
      | none | some (_ + 1) => none
  | .pass i input =>
      match σ.toGo i with
      | some _ => none
      | none => ((σ.server i).pass input).map (σ.set i · none)
  | .close i =>
      match σ.toGo i with
      | some _ => none
      | none => some (σ.set i (σ.server i).close none)

/-- There is an instance of that name. -/
def Taken (σ : Hosts ι W) (name : List Char) : Prop :=
  ∃ i h, (σ.server i).kernel.Open h ∧ σ.names i h = some name

/-- What is assumed of the operating system: with `FILE_FLAG_FIRST_PIPE_INSTANCE`, which
is set in the first round only, nothing is opened under a name that is taken; and
`ConnectNamedPipe` returns zero. -/
def Answers (t : Transition (Hosts ι W) (Label ι W)) : Prop :=
  match t.label with
  | .spawn i reply => t.src.toGo i = some winBacklogNum →
      ∀ name, makePipePath (t.src.server i).path = some name → t.src.Taken name → reply = none
  | .pass _ input => input.ConnectsReturnZero
  | .begin .. | .started _ | .close _ => True

/-! ## One server -/

/-- What a server keeps on its own: its instances bear the name of its pipe, and it has one
before it asks for another. -/
structure Host (s : Server W) (toGo : Option ℕ) (names : HANDLE → Option (List Char)) : Prop where
  inv : s.Inv
  named : ∀ h, s.kernel.Open h → names h = makePipePath s.path
  running : s.running = true → s.HasInstance
  creating : ∀ n, toGo = some n → n = winBacklogNum ∨ n < winBacklogNum ∧ s.HasInstance

/-- No two servers have instances of one name. -/
def Exclusive (σ : Hosts ι W) : Prop :=
  ∀ i j h h' name, (σ.server i).kernel.Open h → (σ.server j).kernel.Open h' →
    σ.names i h = some name → σ.names j h' = some name → i = j

/-- What holds in every state. -/
structure Inv (σ : Hosts ι W) : Prop where
  host : ∀ i, Host (σ.server i) (σ.toGo i) (σ.names i)
  exclusive : σ.Exclusive

/-- What a step of one server owes: it keeps what a server keeps on its own, does not change
its path while it has instances, and opens its first under a name that is not taken. -/
structure Owes (σ : Hosts ι W) (i : ι) (s : Server W) (toGo : Option ℕ) : Prop where
  inv : s.Inv
  running : s.running = true → s.HasInstance
  creating : ∀ n, toGo = some n → n = winBacklogNum ∨ n < winBacklogNum ∧ s.HasInstance
  path : s.HasInstance → (σ.server i).HasInstance → s.path = (σ.server i).path
  first : s.HasInstance → (σ.server i).HasInstance ∨
    ∀ name, makePipePath s.path = some name → ¬ σ.Taken name

variable {σ : Hosts ι W} {i : ι} {s : Server W} {toGo : Option ℕ}

theorem Owes.named (h : σ.Owes i s toGo) (hσ : σ.Inv) (b : HANDLE) (hb : s.kernel.Open b) :
    (σ.set i s toGo).names i b = makePipePath s.path := by
  show Function.update σ.names i _ i b = _
  rw [Function.update_self]
  split
  case isTrue hold => rw [(hσ.host i).named b hold, h.path ⟨b, hb⟩ ⟨b, hold⟩]
  case isFalse => rfl

theorem Owes.host (h : σ.Owes i s toGo) (hσ : σ.Inv) (j : ι) :
    Host ((σ.set i s toGo).server j) ((σ.set i s toGo).toGo j) ((σ.set i s toGo).names j) := by
  by_cases hj : j = i
  · subst hj
    have hnamed := h.named hσ
    unfold set at hnamed ⊢
    simp only [Function.update_self] at hnamed ⊢
    exact ⟨h.inv, hnamed, h.running, h.creating⟩
  · unfold set
    simp only [Function.update_of_ne hj]
    exact hσ.host j

omit [DecidableEq ι] in
/-- Another server has no instance under the name of this one. -/
theorem Owes.apart (h : σ.Owes i s toGo) (hσ : σ.Inv) {j : ι} (hj : j ≠ i) {b b' : HANDLE}
    {name : List Char} (hb : s.kernel.Open b) (hb' : (σ.server j).kernel.Open b')
    (hname : makePipePath s.path = some name) : σ.names j b' ≠ some name := by
  intro hname'
  rcases h.first ⟨b, hb⟩ with ⟨c, hc⟩ | hfree
  · have hcname : σ.names i c = some name := by
      rw [(hσ.host i).named c hc, ← h.path ⟨b, hb⟩ ⟨c, hc⟩, hname]
    exact hj (hσ.exclusive j i b' c name hb' hc hname' hcname)
  · exact hfree name hname ⟨j, b', hb', hname'⟩

theorem Owes.exclusive (h : σ.Owes i s toGo) (hσ : σ.Inv) : (σ.set i s toGo).Exclusive := by
  have hnamed := h.named hσ
  unfold set at hnamed
  simp only [Function.update_self] at hnamed
  intro j k b b' name hb hb' hname hname'
  unfold set at hb hb' hname hname'
  by_cases hj : j = i <;> by_cases hk : k = i
  · rw [hj, hk]
  · subst hj
    simp only [Function.update_self, Function.update_of_ne hk] at hb hb' hname hname'
    exact absurd hname' (h.apart hσ hk hb hb' ((hnamed b hb).symm.trans hname))
  · subst hk
    simp only [Function.update_self, Function.update_of_ne hj] at hb hb' hname hname'
    exact absurd hname (h.apart hσ hj hb' hb ((hnamed b' hb').symm.trans hname'))
  · simp only [Function.update_of_ne hj, Function.update_of_ne hk] at hb hb' hname hname'
    exact hσ.exclusive j k b b' name hb hb' hname hname'

theorem Owes.keeps (h : σ.Owes i s toGo) (hσ : σ.Inv) : (σ.set i s toGo).Inv :=
  ⟨h.host hσ, h.exclusive hσ⟩

/-! ## Steps -/

omit [DecidableEq ι] in
/-- A server without instances owes nothing. -/
theorem Owes.of_none (hinv : s.Inv) (hnone : ¬ s.HasInstance) (hrunning : s.running = false)
    (hgo : ∀ n, toGo = some n → n = winBacklogNum) : σ.Owes i s toGo where
  inv := hinv
  running hr := absurd (hrunning.symm.trans hr) Bool.false_ne_true
  creating n hn := .inl (hgo n hn)
  path hs := absurd hs hnone
  first hs := absurd hs hnone

omit [DecidableEq ι] in
theorem Owes.close (hinv : s.Inv) : σ.Owes i s.close none :=
  .of_none hinv.close (Server.not_hasInstance_close hinv) rfl (by rintro n ⟨⟩)

/-- A round of the loop of `create` pays what it owes. -/
theorem Inv.spawn {reply : Option HANDLE} {σ' : Hosts ι W} (h : σ.Inv)
    (hs : σ.step (.spawn i reply) = some σ') (hok : Answers ⟨σ, .spawn i reply, σ'⟩) :
    ∃ s toGo, σ' = σ.set i s toGo ∧ σ.Owes i s toGo := by
  obtain ⟨hinv, -, -, hcreating⟩ := h.host i
  rcases hgo : σ.toGo i with _ | _ | n
  · simp only [step, hgo] at hs
    cases hs
  · simp only [step, hgo] at hs
    cases hs
  · simp only [step, hgo] at hs
    rcases (σ.server i).createSocket_cases reply with hc | ⟨a, hne, hnew, hc⟩
    · simp only [hc, if_true] at hs
      have hfailed : ({ σ.server i with
          created := (σ.server i).created ++ [invalidHandleValue] } : Server W).Inv :=
        hinv.congr rfl rfl rfl rfl rfl rfl
      exact ⟨_, _, (Option.some.inj hs).symm, Owes.close hfailed⟩
    · simp only [hc, hne, if_false] at hs
      have hsome : ((σ.server i).opened a).HasInstance := ⟨a, Server.open_opened.2 (.inl rfl)⟩
      have hround := hcreating (n + 1) hgo
      refine ⟨(σ.server i).opened a, some n, (Option.some.inj hs).symm,
        ⟨Server.Books.opened hinv.partitioned hnew, hinv.ovmap⟩, fun _ ↦ hsome, fun m hm ↦ ?_,
        fun _ _ ↦ rfl, fun _ ↦ ?_⟩
      · cases hm
        exact .inr ⟨by omega, hsome⟩
      · rcases hround with hfirst | ⟨-, hheld⟩
        · refine .inr fun name hname htaken ↦ hne ?_
          have hnone : reply = none := hok (hgo.trans (congrArg some hfirst)) name hname htaken
          calc a = ((σ.server i).createSocket reply).1 := by rw [hc]
            _ = ((σ.server i).createSocket none).1 := by rw [hnone]
            _ = invalidHandleValue := (σ.server i).createSocket_none
        · exact .inl hheld

/-- Every step is one of one server, and pays what it owes. -/
theorem Inv.pays {t : Transition (Hosts ι W) (Label ι W)} (hs : t.src.step t.label = some t.dst)
    (hok : Answers t) (h : t.src.Inv) :
    ∃ i s toGo, t.dst = t.src.set i s toGo ∧ t.src.Owes i s toGo := by
  obtain ⟨σ, l, σ'⟩ := t
  have hσ : σ.Inv := h
  have hstep : σ.step l = some σ' := hs
  cases l with
  | begin i path maxClients =>
      cases hgo : σ.toGo i with
      | some n => simp only [Hosts.step, hgo, reduceCtorEq] at hstep
      | none =>
          simp only [Hosts.step, hgo] at hstep
          have hinv := (hσ.host i).inv
          refine ⟨i, _, _, (Option.some.inj hstep).symm, Owes.of_none
            (hinv.close.congr rfl rfl rfl rfl rfl rfl) (Server.not_hasInstance_close hinv) rfl ?_⟩
          rintro n ⟨⟩
          rfl
  | spawn i reply => exact ⟨i, hσ.spawn hstep hok⟩
  | started i =>
      rcases hgo : σ.toGo i with _ | _ | n
      · simp only [Hosts.step, hgo, reduceCtorEq] at hstep
      · simp only [Hosts.step, hgo] at hstep
        obtain ⟨hinv, -, -, hcreating⟩ := hσ.host i
        have hsome : (σ.server i).HasInstance :=
          ((hcreating 0 hgo).resolve_left (by decide)).2
        exact ⟨i, _, _, (Option.some.inj hstep).symm, hinv.congr rfl rfl rfl rfl rfl rfl,
          fun _ ↦ hsome, (by rintro n ⟨⟩), fun _ _ ↦ rfl, fun _ ↦ .inl hsome⟩
      · simp only [Hosts.step, hgo, reduceCtorEq] at hstep
  | pass i input =>
      have hzero : input.ConnectsReturnZero := hok
      cases hgo : σ.toGo i with
      | some n => simp only [Hosts.step, hgo, reduceCtorEq] at hstep
      | none =>
          simp only [Hosts.step, hgo, Option.map_eq_some_iff] at hstep
          obtain ⟨s, hpass, hset⟩ := hstep
          obtain ⟨hinv, -, hrunning, -⟩ := hσ.host i
          obtain ⟨hgoes, rfl⟩ := (Server.pass_eq_some_iff hinv.ovmap).1 hpass
          obtain ⟨hpath, hstill⟩ := Server.verified_keeps hinv hzero (hrunning hgoes)
          exact ⟨i, _, _, hset.symm, hinv.verified hzero, fun _ ↦ hstill, (by rintro n ⟨⟩),
            fun _ _ ↦ hpath, fun _ ↦ .inl (hrunning hgoes)⟩
  | close i =>
      cases hgo : σ.toGo i with
      | some n => simp only [Hosts.step, hgo, reduceCtorEq] at hstep
      | none =>
          simp only [Hosts.step, hgo] at hstep
          exact ⟨i, _, _, (Option.some.inj hstep).symm, Owes.close (hσ.host i).inv⟩

/-- Every step keeps the names apart. -/
theorem Inv.step {t : Transition (Hosts ι W) (Label ι W)} (hs : t.src.step t.label = some t.dst)
    (hok : Answers t) (h : t.src.Inv) : t.dst.Inv := by
  obtain ⟨i, s, toGo, hdst, howes⟩ := h.pays hs hok
  rw [hdst]
  exact howes.keeps h

/-- No server has been created. -/
def start : Hosts ι W := {}

omit [DecidableEq ι] in
theorem Inv.start : (start : Hosts ι W).Inv where
  host i := ⟨Server.Inv.start, fun h hh ↦ absurd hh Bool.false_ne_true, fun h ↦ absurd h Bool.false_ne_true,
    by rintro n ⟨⟩⟩
  exclusive i j h h' name hh := absurd hh Bool.false_ne_true

/-- **A pipe name belongs to one server.**  In every interleaving of what servers in their
processes do, two servers that have instances of one name are the same; and every server
whose watcher runs has instances, all of them under the name of its pipe. -/
theorem name_exclusive {ts : List (Transition (Hosts ι W) (Label ι W))}
    (hrun : Run step start ts σ) (hok : ∀ t ∈ ts, Answers t) :
    (∀ i j h h' name, (σ.server i).kernel.Open h → (σ.server j).kernel.Open h' →
      σ.names i h = some name → σ.names j h' = some name → i = j) ∧
    ∀ i, (σ.server i).running = true → (∃ h, (σ.server i).kernel.Open h) ∧
      ∀ h, (σ.server i).kernel.Open h → σ.names i h = makePipePath (σ.server i).path := by
  obtain ⟨hlast, -⟩ := hrun.invariant (fun t hs hc h ↦ Inv.step hs hc h) Inv.start hok
  exact ⟨hlast.exclusive, fun i hrunning ↦ ⟨(hlast.host i).running hrunning, (hlast.host i).named⟩⟩

/-- This step opens no first instance. -/
def opensNoFirst (t : Transition (Hosts ι W) (Label ι W)) : Bool :=
  match t.label with
  | .spawn i reply => t.src.toGo i ≠ some winBacklogNum || reply.isNone
  | .begin .. | .started _ | .pass .. | .close _ => true

omit [DecidableEq ι] in
theorem answers_of_opensNoFirst {t : Transition (Hosts ι W) (Label ι W)} (h : opensNoFirst t = true)
    (hzero : ∀ i input, t.label = .pass i input → input.ConnectsReturnZero) : Answers t := by
  obtain ⟨σ, l, σ'⟩ := t
  cases l with
  | spawn i reply =>
      intro hfirst name _ _
      have hround : σ.toGo i ≠ some winBacklogNum ∨ reply = none := by simpa [opensNoFirst] using h
      exact hround.resolve_left (not_not.2 hfirst)
  | pass i input => exact hzero i input rfl
  | begin | started | close => trivial

/-- A pass that finds a client on the first instance, and accepts it. -/
def acceptFirst : PassInput Unit where
  signalled := none
  connect h := ⟨false, if h = 1 then errorPipeConnected else errorIoPending⟩
  onAccept := true
  offer _ := ⟨(), true, none⟩
  expired _ := false
  good _ := true

/-- One server is created, and has made a pass, when another is created under the same path,
which fails. -/
theorem name_exclusive_refused : ∃ ts σ, Run step (start : Hosts Bool Unit) ts σ ∧
    (σ.server false).running = true ∧ (σ.server false).waitingSockets = [2, 3, 4, 5, 6, 7, 8] ∧
    σ.toGo true = none ∧ (σ.server true).sockets = [] ∧
    (∀ i j h h' name, (σ.server i).kernel.Open h → (σ.server j).kernel.Open h' →
      σ.names i h = some name → σ.names j h' = some name → i = j) ∧
    (∃ h, (σ.server false).kernel.Open h) ∧
    ∀ h, (σ.server false).kernel.Open h → σ.names false h = makePipePath ['p'] := by
  -- The first instance.
  obtain ⟨ts₁, σ₁, hrun₁, hok₁, hlater⟩ : ∃ ts σ, Run step (start : Hosts Bool Unit) ts σ ∧
      (∀ t ∈ ts, Answers t) ∧ ∃ r, trace step σ ((List.range 7).map (fun n ↦ .spawn false (some (n + 2))) ++
        [.started false, .pass false acceptFirst, .begin true ['p'] 1, .spawn true none]) = some r ∧
        r.1.all opensNoFirst = true ∧ (r.2.server false).running = true ∧
        (r.2.server false).waitingSockets = [2, 3, 4, 5, 6, 7, 8] ∧ r.2.toGo true = none ∧
        (r.2.server true).sockets = [] ∧ (r.2.server false).path = ['p'] := by
    refine ⟨_, _, .cons (l := .begin false ['p'] 1) rfl (.cons (l := .spawn false (some 1)) rfl (.nil _)),
      ?_, _, rfl, by decide⟩
    refine List.forall_mem_cons.2 ⟨trivial, List.forall_mem_singleton.2 ?_⟩
    rintro - name - ⟨i, h, hopen, -⟩
    cases i with
    | false => exact absurd hopen Bool.false_ne_true
    | true => exact absurd hopen Bool.false_ne_true
  obtain ⟨⟨ts₂, σ₂⟩, htrace, hnoFirst, hrunning, hwaiting, hgo, hnone, hpath⟩ := hlater
  have hrun : Run step start (ts₁ ++ ts₂) σ₂ := hrun₁.append (Run.of_trace htrace)
  have hok : ∀ t ∈ ts₁ ++ ts₂, Answers t := by
    refine List.forall_mem_append.2 ⟨hok₁, fun t ht ↦ ?_⟩
    refine answers_of_opensNoFirst (List.all_eq_true.1 hnoFirst t ht) fun i input hl ↦ ?_
    have hmem : t.label ∈ ts₂.map Transition.label := List.mem_map_of_mem ht
    rw [map_label_trace htrace, hl] at hmem
    obtain ⟨-, rfl⟩ : i = false ∧ input = acceptFirst := by simpa using hmem
    exact fun _ ↦ rfl
  obtain ⟨hexclusive, hnamed⟩ := name_exclusive hrun hok
  obtain ⟨hsome, hall⟩ := hnamed false hrunning
  refine ⟨_, σ₂, hrun, hrunning, hwaiting, hgo, hnone, hexclusive, hsome, fun h hh ↦ ?_⟩
  rw [hall h hh, hpath]

/-! ## The loop of `create` -/

/-- The end of `create`. -/
def ended : error × Server W → Server W
  | (.success, s) => { s with running := true }
  | (_, s) => s

theorem create_ended (path : List Char) (maxClients : ℕ) (replies : ℕ → Option HANDLE)
    (s : Server W) : (s.create path maxClients replies).2 =
      ended (Server.spawn replies winBacklogNum (s.prepare path maxClients)) := by
  rcases hspawn : Server.spawn replies winBacklogNum (s.prepare path maxClients) with ⟨ec, s'⟩
  unfold Server.create
  rw [hspawn]
  cases ec with
  | success => rfl
  | _ => rfl

/-- The loop of `create`, taken round by round, ends as it does in one go. -/
theorem spawn_rounds (i : ι) (replies : ℕ → Option HANDLE) : ∀ (n : ℕ) (σ : Hosts ι W),
    σ.toGo i = some n → ∃ ts σ', Run step σ ts σ' ∧ σ'.toGo i = none ∧
      σ'.server = Function.update σ.server i (ended (Server.spawn replies n (σ.server i))) := by
  intro n
  induction n with
  | zero =>
      intro σ hgo
      have hstarted : σ.step (.started i) = some (σ.set i { σ.server i with running := true } none) := by
        simp only [step, hgo]
      exact ⟨_, _, .cons hstarted (.nil _), Function.update_self .., rfl⟩
  | succ n ih =>
      intro σ hgo
      rcases (σ.server i).createSocket_cases (replies n) with hc | ⟨a, hne, -, hc⟩
      · have hfailed : σ.step (.spawn i (replies n)) = some (σ.set i ({ σ.server i with
            created := (σ.server i).created ++ [invalidHandleValue] } : Server W).close none) := by
          simp only [step, hgo, hc, if_true]
        refine ⟨_, _, .cons hfailed (.nil _), Function.update_self .., ?_⟩
        simp only [Server.spawn, hc, if_true]
        rfl
      · have hopened : σ.step (.spawn i (replies n)) =
            some (σ.set i ((σ.server i).opened a) (some n)) := by
          simp only [step, hgo, hc, hne, if_false]
          rfl
        obtain ⟨ts, σ', hrun, hnone, hserver⟩ := ih (σ.set i ((σ.server i).opened a) (some n))
          (Function.update_self ..)
        refine ⟨_, σ', .cons hopened hrun, hnone, ?_⟩
        rw [hserver]
        simp only [Server.spawn, hc, hne, if_false, set, Function.update_self, Function.update_idem]
        rfl

/-- What `create` does in one go, it does round by round. -/
theorem create_rounds {i : ι} (hgo : σ.toGo i = none) (path : List Char) (maxClients : ℕ)
    (replies : ℕ → Option HANDLE) : ∃ ts σ', Run step σ ts σ' ∧ σ'.toGo i = none ∧
      σ'.server = Function.update σ.server i
        ((σ.server i).create path maxClients replies).2 := by
  have hbegin : σ.step (.begin i path maxClients) =
      some (σ.set i ((σ.server i).prepare path maxClients) (some winBacklogNum)) := by
    simp only [step, hgo]
  obtain ⟨ts, σ', hrun, hnone, hserver⟩ := spawn_rounds i replies winBacklogNum
    (σ.set i ((σ.server i).prepare path maxClients) (some winBacklogNum)) (Function.update_self ..)
  refine ⟨_, σ', .cons hbegin hrun, hnone, ?_⟩
  rw [hserver, create_ended]
  simp only [set, Function.update_self, Function.update_idem]

end Hosts

end Datapath.Windows
