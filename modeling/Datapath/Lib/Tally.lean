import Datapath.Lib.OrderedMap
import Mathlib.Data.List.Count

/-!
# Tallies

An ordered map from keys to numbers, which says how often each key has come up.
`occurrences` lists these again, and `Tallies` relates the map to what has come up.  Since
the map is in order, the numbers up to a key add up to how many of them are not above it
(`Tallies.countP_le`).
-/

namespace Datapath.Lib.OrderedMap

variable {K V : Type*}

/-- The keys, each as often as the map says. -/
def occurrences (m : OrderedMap K ℕ) : List K := m.flatMap fun e ↦ List.replicate e.2 e.1

@[simp] theorem occurrences_nil : occurrences ([] : OrderedMap K ℕ) = [] := rfl

@[simp] theorem occurrences_cons (e : K × ℕ) (m : OrderedMap K ℕ) :
    occurrences (e :: m) = List.replicate e.2 e.1 ++ occurrences m := List.flatMap_cons

@[simp] theorem occurrences_append (m m' : OrderedMap K ℕ) :
    occurrences (m ++ m') = occurrences m ++ occurrences m' := List.flatMap_append

theorem mem_occurrences {k : K} {m : OrderedMap K ℕ} : k ∈ occurrences m ↔ ∃ e ∈ m, 0 < e.2 ∧ e.1 = k := by
  unfold occurrences
  rw [List.mem_flatMap]
  refine exists_congr fun e ↦ and_congr_right fun _ ↦ ?_
  rw [List.mem_replicate, Nat.pos_iff_ne_zero]
  exact and_congr_right fun _ ↦ eq_comm

theorem mem_keys_of_mem_occurrences {k : K} {m : OrderedMap K ℕ} (h : k ∈ occurrences m) :
    k ∈ keys m := by
  obtain ⟨e, he, -, rfl⟩ := mem_occurrences.1 h
  exact List.mem_map_of_mem he

theorem length_occurrences_cons (e : K × ℕ) (m : OrderedMap K ℕ) :
    (occurrences (e :: m)).length = e.2 + (occurrences m).length := by
  rw [occurrences_cons, List.length_append, List.length_replicate]

/-- The sum of all numbers. -/
theorem foldl_add_eq (n : ℕ) (m : OrderedMap K ℕ) :
    m.foldl (fun n e ↦ n + e.2) n = n + (occurrences m).length := by
  induction m generalizing n with
  | nil => rfl
  | cons e m ih => rw [List.foldl_cons, ih, length_occurrences_cons, Nat.add_assoc]

variable [LinearOrder K]

theorem mem_keys_insert {k k' : K} {v : V} {m : OrderedMap K V} (h : k' ∈ keys (insert k v m)) :
    k' = k ∨ k' ∈ keys m := by
  induction m with
  | nil => exact .inl (List.mem_singleton.1 h)
  | cons e m ih =>
      unfold insert at h
      split_ifs at h with hlt heq
      · exact List.mem_cons.1 h
      · exact .inr h
      · rcases List.mem_cons.1 h with rfl | h
        · exact .inr List.mem_cons_self
        · exact (ih h).imp_right (List.mem_cons_of_mem _)

/-- An insertion keeps the keys in order. -/
theorem pairwise_insert {k : K} {v : V} {m : OrderedMap K V} (h : (keys m).Pairwise (· < ·)) :
    (keys (insert k v m)).Pairwise (· < ·) := by
  induction m with
  | nil => exact List.pairwise_singleton _ _
  | cons e m ih =>
      obtain ⟨k', v'⟩ := e
      obtain ⟨hhead, htail⟩ := List.pairwise_cons.1 h
      unfold insert
      split_ifs with hlt heq
      · refine List.pairwise_cons.2 ⟨fun k₁ hk₁ ↦ ?_, h⟩
        rcases List.mem_cons.1 hk₁ with rfl | hk₁
        · exact hlt
        · exact hlt.trans (hhead k₁ hk₁)
      · exact h
      · refine List.pairwise_cons.2 ⟨fun k₁ hk₁ ↦ ?_, ih htail⟩
        rcases mem_keys_insert hk₁ with rfl | hold
        · exact lt_of_le_of_ne (not_lt.1 hlt) (Ne.symm heq)
        · exact hhead k₁ hold

/-- `m` says how often each key is in `l`. -/
structure Tallies (m : OrderedMap K ℕ) (l : List K) : Prop where
  sorted : (keys m).Pairwise (· < ·)
  positive : ∀ e ∈ m, 0 < e.2
  occurrences : (occurrences m).Perm l

namespace Tallies

variable {m : OrderedMap K ℕ} {l : List K}

theorem nil : Tallies ([] : OrderedMap K ℕ) [] := ⟨.nil, List.forall_mem_nil _, .nil⟩

/-- A key that comes up for the first time. -/
theorem insert (h : Tallies m l) {k : K} (hk : k ∉ keys m) : Tallies (insert k 1 m) (l ++ [k]) where
  sorted := pairwise_insert h.sorted
  positive e he := by
    rcases List.mem_cons.1 ((insert_perm hk).mem_iff.1 he) with rfl | he
    · exact Nat.one_pos
    · exact h.positive e he
  occurrences := by
    refine ((insert_perm hk).flatMap_right _).trans ?_
    exact (h.occurrences.cons k).trans (List.perm_append_singleton k l).symm

/-- A key that comes up again. -/
theorem set (h : Tallies m l) {k : K} {n : ℕ} (hn : m.lookup k = some n) :
    Tallies (set k (n + 1) m) (l ++ [k]) where
  sorted := by
    rw [keys_set]
    exact h.sorted
  positive e he := by
    rcases mem_set he with rfl | he
    · exact Nat.succ_pos n
    · exact h.positive e he
  occurrences := by
    obtain ⟨left, right, rfl, hset⟩ := set_split (h.sorted.imp ne_of_lt) hn
    have hold := h.occurrences
    rw [hset]
    simp only [occurrences_append, occurrences_cons, List.replicate_succ, List.cons_append] at hold ⊢
    exact List.perm_middle.trans <| (hold.cons k).trans (List.perm_append_singleton k l).symm

theorem mem_keys (h : Tallies m l) {k : K} : k ∈ keys m ↔ k ∈ l := by
  rw [← h.occurrences.mem_iff]
  constructor
  · intro hk
    obtain ⟨e, he, rfl⟩ := List.mem_map.1 hk
    exact mem_occurrences.2 ⟨e, he, h.positive e he, rfl⟩
  · exact mem_keys_of_mem_occurrences

theorem length (h : Tallies m l) : m.foldl (fun n e ↦ n + e.2) 0 = l.length := by
  rw [foldl_add_eq, Nat.zero_add]
  exact h.occurrences.length_eq

/-- **The numbers up to a key** add up to how many keys are not above it. -/
theorem countP_le {left right : OrderedMap K ℕ} {k : K} {n : ℕ}
    (h : Tallies (left ++ (k, n) :: right) l) :
    l.countP (· ≤ k) = (OrderedMap.occurrences left).length + n := by
  have hsorted := h.sorted
  unfold keys at hsorted
  rw [List.map_append, List.map_cons, List.pairwise_append, List.pairwise_cons] at hsorted
  obtain ⟨-, ⟨hright, -⟩, hleft⟩ := hsorted
  have hbelow : (OrderedMap.occurrences left).countP (· ≤ k) = (OrderedMap.occurrences left).length := by
    refine List.countP_eq_length.2 fun k' hk' ↦ decide_eq_true ?_
    exact (hleft k' (mem_keys_of_mem_occurrences hk') k List.mem_cons_self).le
  have habove : (OrderedMap.occurrences right).countP (· ≤ k) = 0 := by
    refine List.countP_eq_zero.2 fun k' hk' ↦ ?_
    exact fun hle ↦ absurd (of_decide_eq_true hle) (hright k' (mem_keys_of_mem_occurrences hk')).not_ge
  rw [← h.occurrences.countP_eq, occurrences_append, occurrences_cons, List.countP_append, List.countP_append,
    hbelow, habove, List.countP_replicate, if_pos (decide_eq_true le_rfl), Nat.add_zero]

end Tallies

end Datapath.Lib.OrderedMap
