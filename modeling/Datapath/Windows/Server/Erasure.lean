import Datapath.Windows.Server.Phases

/-!
# Erasing while iterating

The loop of the verify phase erases an entry of `active_sockets` through its iterator and
goes on with `continue`, so that the iterator is advanced after its entry is gone.  Here the
loop is taken iterator by iterator; `verifyPhase` is what it does if the erased entry is
taken as dropped and the loop goes on with the next one.

Under that reading a pass settles every dead connection (`verifyPhase_settled`).  As the
loop is written, it does so only if there is none (`verifies_iff`).
-/

namespace Datapath.Windows

open Datapath.Lib

namespace Server

variable {W : Type*} {s : Server W} {expired good : W → Bool}

/-! ## What the phase is to do -/

/-- The handles of the dead connections. -/
def deadHandles (expired good : W → Bool) (entries : OrderedMap HANDLE W) : List HANDLE :=
  OrderedMap.keys (entries.filter (Dead expired good))

/-- How many handles the backlog has room for. -/
def room (s : Server W) : ℕ := winBacklogNum - (s.waitingSockets.length + s.pendingSockets.length)

/-- The dead connections are no longer active.  As many of their handles as there is room for
are waiting, and the others have been disconnected and closed. -/
structure Settled (expired good : W → Bool) (s s' : Server W) : Prop where
  active : s'.activeSockets = s.activeSockets.filter fun e ↦ !Dead expired good e
  waiting : s'.waitingSockets =
    s.waitingSockets ++ (deadHandles expired good s.activeSockets).take s.room
  pending : s'.pendingSockets = s.pendingSockets
  kernel : s'.kernel = ((deadHandles expired good s.activeSockets).drop s.room).foldl kill s.kernel

theorem deadHandles_cons_of_dead {e : HANDLE × W} (h : Dead expired good e = true)
    (rest : OrderedMap HANDLE W) :
    deadHandles expired good (e :: rest) = e.1 :: deadHandles expired good rest := by
  unfold deadHandles
  rw [List.filter_cons_of_pos h]
  rfl

theorem deadHandles_cons_of_not_dead {e : HANDLE × W} (h : ¬ Dead expired good e = true)
    (rest : OrderedMap HANDLE W) :
    deadHandles expired good (e :: rest) = deadHandles expired good rest := by
  unfold deadHandles
  rw [List.filter_cons_of_neg h]

/-- Erasing a handle, and then others. -/
theorem filter_erase (h : HANDLE) (handles : List HANDLE) (entries : OrderedMap HANDLE W) :
    (OrderedMap.erase h entries).filter (fun e ↦ e.1 ∉ handles) =
      entries.filter fun e ↦ e.1 ∉ h :: handles := by
  unfold OrderedMap.erase
  rw [List.filter_filter]
  refine List.filter_congr fun e _ ↦ ?_
  simp [not_or, Bool.and_comm]

theorem verify_fold (expired good : W → Bool) (entries : OrderedMap HANDLE W) :
    ∀ (s : Server W) (toKill : List HANDLE),
      entries.foldl (verifyOne expired good) (s, toKill) = ({ s with
        waitingSockets := s.waitingSockets ++ (deadHandles expired good entries).take s.room
        kernel := ((deadHandles expired good entries).drop s.room).foldl kill s.kernel
        activeSockets := s.activeSockets.filter fun e ↦ e.1 ∉ deadHandles expired good entries },
        toKill ++ (deadHandles expired good entries).drop s.room) := by
  induction entries with
  | nil =>
      intro s toKill
      simp [deadHandles, OrderedMap.keys]
  | cons e rest ih =>
      intro s toKill
      rw [List.foldl_cons, verifyOne_eq]
      by_cases hdead : Dead expired good e = true
      · rw [if_pos hdead, deadHandles_cons_of_dead hdead]
        rcases retire_cases e.1 s toKill with ⟨hroom, hr⟩ | ⟨hfull, hr⟩
        · obtain ⟨n, hn⟩ : ∃ n, s.room = n + 1 := ⟨s.room - 1, by unfold room; omega⟩
          rw [hr, ih]
          have hleft : room { s with
              waitingSockets := s.waitingSockets ++ [e.1]
              activeSockets := OrderedMap.erase e.1 s.activeSockets } = n := by
            unfold room at hn ⊢
            simp only [List.length_append, List.length_singleton]
            omega
          simp only [hleft, hn, List.take_succ_cons, List.drop_succ_cons, List.append_assoc,
            List.singleton_append, filter_erase]
        · have hn : s.room = 0 := Nat.sub_eq_zero_of_le hfull
          rw [hr, ih]
          have hleft : room { s with
              kernel := kill s.kernel e.1
              activeSockets := OrderedMap.erase e.1 s.activeSockets } = 0 := hn
          simp only [hleft, hn, List.take_zero, List.drop_zero, List.append_assoc,
            List.singleton_append, filter_erase, List.foldl_cons]
      · rw [if_neg hdead, ih, deadHandles_cons_of_not_dead hdead]

/-- A handle is that of a dead connection exactly if its own is. -/
theorem mem_deadHandles (expired good : W → Bool) (hnodup : (OrderedMap.keys s.activeSockets).Nodup)
    {e : HANDLE × W} (he : e ∈ s.activeSockets) :
    e.1 ∈ deadHandles expired good s.activeSockets ↔ Dead expired good e = true := by
  constructor
  · intro hmem
    obtain ⟨e', he', heq⟩ := List.mem_map.1 hmem
    obtain ⟨hactive, hdead⟩ := List.mem_filter.1 he'
    rw [← List.inj_on_of_nodup_map hnodup hactive he heq]
    exact hdead
  · intro hdead
    exact List.mem_map_of_mem (List.mem_filter.2 ⟨he, hdead⟩)

/-- **The verify phase** settles the dead connections, if erasing one does not disturb the
loop. -/
theorem verifyPhase_settled (hnodup : (OrderedMap.keys s.activeSockets).Nodup)
    (expired good : W → Bool) : Settled expired good s (s.verifyPhase expired good) := by
  unfold verifyPhase
  rw [verify_fold]
  refine ⟨?_, rfl, rfl, rfl⟩
  dsimp only
  rw [List.nil_append, List.filter_filter]
  refine List.filter_congr fun e he ↦ ?_
  have hdead := mem_deadHandles expired good hnodup he
  rw [← Bool.coe_iff_coe]
  simp only [Bool.and_eq_true, decide_eq_true_eq, Bool.not_eq_true', ← Bool.not_eq_true, ← hdead]
  constructor
  · exact And.right
  · exact fun hnot ↦ ⟨fun hmem ↦ hnot (List.mem_of_mem_drop hmem), hnot⟩

/-! ## What the loop does -/

/-- What has become of the loop. -/
inductive Loop (A : Type*) where
  | running
  | finished (a : A)
  /-- An iterator to an erased entry has been dereferenced or advanced. -/
  | undefined

/-- The loop over `active_sockets`, with a bound on the number of its rounds.  The iterator
is the key of its entry, and `none` is `end()`. -/
def verifyLoop (expired good : W → Bool) : ℕ → Server W × List HANDLE → Option HANDLE →
    Loop (Server W × List HANDLE)
  | _, st, none => .finished st
  | 0, _, some _ => .running
  | n + 1, st, some h =>
      match st.1.activeSockets.lookup h with
      | none => .undefined
      | some w =>
          let st := verifyOne expired good st (h, w)
          match OrderedMap.next? h st.1.activeSockets with
          | none => .undefined
          | some itr => verifyLoop expired good n st itr

/-- The loop of the verify phase, from `begin()`. -/
def verifyFrom (expired good : W → Bool) (n : ℕ) (s : Server W) : Loop (Server W × List HANDLE) :=
  verifyLoop expired good n (s, []) (s.activeSockets.head?.map Prod.fst)

/-- The loop ends, and when the handles of `to_kill` have been erased the dead connections
are settled. -/
def Verifies (expired good : W → Bool) (s : Server W) : Prop :=
  ∃ n s' toKill, verifyFrom expired good n s = .finished (s', toKill) ∧
    Settled expired good s { s' with activeSockets := s'.activeSockets.filter (·.1 ∉ toKill) }

/-- Through connections that are alive the loop goes on to the next entry. -/
theorem verifyLoop_alive {l rest : OrderedMap HANDLE W} {e : HANDLE × W}
    (hactive : s.activeSockets = l ++ e :: rest) (hnodup : (OrderedMap.keys s.activeSockets).Nodup)
    (halive : Dead expired good e = false) (n : ℕ) (toKill : List HANDLE) :
    verifyLoop expired good (n + 1) (s, toKill) (some e.1) =
      verifyLoop expired good n (s, toKill) (rest.head?.map Prod.fst) := by
  have hlookup : s.activeSockets.lookup e.1 = some e.2 :=
    OrderedMap.lookup_of_mem hnodup (hactive ▸ List.mem_append_right _ List.mem_cons_self)
  have hnext : OrderedMap.next? e.1 s.activeSockets = some (rest.head?.map Prod.fst) := by
    have hl : e.1 ∉ OrderedMap.keys l := by
      rw [hactive, OrderedMap.keys, List.map_append, List.map_cons, List.nodup_middle,
        List.nodup_cons] at hnodup
      exact fun hmem ↦ hnodup.1 (List.mem_append_left _ hmem)
    rw [hactive]
    exact OrderedMap.next?_append hl
  have hone : verifyOne expired good (s, toKill) (e.1, e.2) = (s, toKill) := by
    rw [verifyOne_eq]
    exact if_neg (halive ▸ Bool.false_ne_true)
  rw [verifyLoop, hlookup]
  dsimp only
  rw [hone]
  dsimp only
  rw [hnext]

/-- At a dead connection the iterator is erased and then advanced. -/
theorem verifyLoop_dead {l rest : OrderedMap HANDLE W} {e : HANDLE × W}
    (hactive : s.activeSockets = l ++ e :: rest) (hnodup : (OrderedMap.keys s.activeSockets).Nodup)
    (hdead : Dead expired good e = true) (n : ℕ) (toKill : List HANDLE) :
    verifyLoop expired good (n + 1) (s, toKill) (some e.1) = .undefined := by
  have hlookup : s.activeSockets.lookup e.1 = some e.2 :=
    OrderedMap.lookup_of_mem hnodup (hactive ▸ List.mem_append_right _ List.mem_cons_self)
  have hgone : OrderedMap.next? e.1 (verifyOne expired good (s, toKill) (e.1, e.2)).1.activeSockets =
      none := by
    rw [verifyOne_eq, if_pos hdead]
    rcases retire_cases e.1 s toKill with ⟨-, hr⟩ | ⟨-, hr⟩
    · rw [hr]
      exact OrderedMap.next?_erase e.1 s.activeSockets
    · rw [hr]
      exact OrderedMap.next?_erase e.1 s.activeSockets
  rw [verifyLoop, hlookup]
  dsimp only
  rw [hgone]

/-- Without dead connections the loop ends, and has changed nothing. -/
theorem verifyLoop_finished {rest : OrderedMap HANDLE W} : ∀ {l : OrderedMap HANDLE W},
    s.activeSockets = l ++ rest → (OrderedMap.keys s.activeSockets).Nodup →
      (∀ e ∈ rest, Dead expired good e = false) → ∀ toKill,
        verifyLoop expired good rest.length (s, toKill) (rest.head?.map Prod.fst) =
          .finished (s, toKill) := by
  induction rest with
  | nil =>
      intro l _ _ _ toKill
      rfl
  | cons e rest ih =>
      intro l hactive hnodup halive toKill
      obtain ⟨he, hrest⟩ := List.forall_mem_cons.1 halive
      rw [List.length_cons, List.head?_cons, Option.map_some, verifyLoop_alive hactive hnodup he]
      exact ih (l := l ++ [e]) (by rw [hactive, List.append_assoc]; rfl) hnodup hrest toKill

/-- With a dead connection it does not end, however many rounds it is given. -/
theorem verifyLoop_not_finished {rest : OrderedMap HANDLE W} : ∀ {l : OrderedMap HANDLE W},
    s.activeSockets = l ++ rest → (OrderedMap.keys s.activeSockets).Nodup →
      (∃ e ∈ rest, Dead expired good e = true) → ∀ n toKill st,
        verifyLoop expired good n (s, toKill) (rest.head?.map Prod.fst) ≠ .finished st := by
  induction rest with
  | nil =>
      intro l _ _ hdead
      obtain ⟨e, he, -⟩ := hdead
      exact absurd he List.not_mem_nil
  | cons e rest ih =>
      intro l hactive hnodup hdead n toKill st
      rw [List.head?_cons, Option.map_some]
      cases n with
      | zero => exact nofun
      | succ n =>
          cases he : Dead expired good e with
          | true =>
              rw [verifyLoop_dead hactive hnodup he]
              exact nofun
          | false =>
              rw [verifyLoop_alive hactive hnodup he]
              obtain ⟨e', he', hdead'⟩ := hdead
              have hlater : ∃ e ∈ rest, Dead expired good e = true := by
                rcases List.mem_cons.1 he' with rfl | hmem
                · exact absurd (he.symm.trans hdead') Bool.false_ne_true
                · exact ⟨e', hmem, hdead'⟩
              exact ih (l := l ++ [e]) (by rw [hactive, List.append_assoc]; rfl) hnodup hlater n toKill st

/-- **The verify phase as it is written** settles the dead connections, without advancing an
iterator to an erased entry, exactly if there are none. -/
theorem verifies_iff (hnodup : (OrderedMap.keys s.activeSockets).Nodup) (expired good : W → Bool) :
    s.Verifies expired good ↔ ∀ e ∈ s.activeSockets, expired e.2 = false ∧ good e.2 = true := by
  have halive : (∀ e ∈ s.activeSockets, expired e.2 = false ∧ good e.2 = true) ↔
      ∀ e ∈ s.activeSockets, Dead expired good e = false := by
    simp [Dead]
  rw [halive]
  constructor
  · rintro ⟨n, s', toKill, hfinished, -⟩ e he
    by_contra hdead
    exact verifyLoop_not_finished (l := []) rfl hnodup ⟨e, he, Bool.eq_true_of_not_eq_false hdead⟩ n []
      (s', toKill) hfinished
  · intro hnone
    have hdead : deadHandles expired good s.activeSockets = [] := by
      unfold deadHandles
      rw [List.filter_eq_nil_iff.2 fun e he ↦ (hnone e he) ▸ Bool.false_ne_true]
      rfl
    refine ⟨s.activeSockets.length, s, [], verifyLoop_finished (l := []) rfl hnodup hnone [], ?_⟩
    refine ⟨?_, ?_, rfl, ?_⟩
    · refine List.filter_congr fun e he ↦ ?_
      simp [hnone e he]
    · rw [hdead]
      simp
    · rw [hdead]
      simp

/-- Two connections that are alive. -/
theorem verifies_two :
    Verifies (fun _ ↦ false) (fun _ ↦ true) ({ activeSockets := [(4, ()), (8, ())] } : Server Unit) :=
  (verifies_iff (by decide) _ _).2 fun _ _ ↦ ⟨rfl, rfl⟩

/-- One whose socket has expired. -/
theorem erased_iterator_advanced :
    ¬ Verifies (fun _ ↦ true) (fun _ ↦ true) ({ activeSockets := [(4, ())] } : Server Unit) := by
  rintro ⟨n, s', toKill, hfinished, -⟩
  cases n with
  | zero => cases hfinished
  | succ n => cases hfinished

end Server

end Datapath.Windows
