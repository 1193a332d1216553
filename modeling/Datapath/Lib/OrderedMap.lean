import Mathlib.Data.List.Perm.Basic
import Mathlib.Data.List.Nodup
import Mathlib.Order.Lattice

/-!
# Ordered maps

A map that is iterated in the order of its keys, as an association list.  `insert`
leaves a key that is there alone, and `erase` removes one.
-/

namespace Datapath.Lib

/-- A finite map, as the list of its entries in the order of their keys. -/
abbrev OrderedMap (K V : Type*) := List (K × V)

namespace OrderedMap

variable {K V : Type*} [LinearOrder K]

/-- The keys, in order. -/
def keys (m : OrderedMap K V) : List K := m.map Prod.fst

/-- Insert an entry, unless the map has one for that key. -/
def insert (k : K) (v : V) : OrderedMap K V → OrderedMap K V
  | [] => [(k, v)]
  | (k', v') :: rest =>
      if k < k' then (k, v) :: (k', v') :: rest
      else if k = k' then (k', v') :: rest
      else (k', v') :: insert k v rest

/-- Remove the entry of a key. -/
def erase (k : K) (m : OrderedMap K V) : OrderedMap K V := m.filter fun e ↦ e.1 ≠ k

/-- Change the entry of a key that is there. -/
def set (k : K) (v : V) (m : OrderedMap K V) : OrderedMap K V :=
  m.map fun e ↦ if e.1 = k then (k, v) else e

/-- The key after this one, or `none` at the end, for an iterator that is advanced; nothing
if the iterator refers to an entry that is not there. -/
def next? (k : K) : OrderedMap K V → Option (Option K)
  | [] => none
  | e :: rest => if e.1 = k then some (rest.head?.map Prod.fst) else next? k rest

/-- A new key is one more entry. -/
theorem insert_perm {k : K} {v : V} :
    ∀ {m : OrderedMap K V}, k ∉ keys m → (insert k v m).Perm ((k, v) :: m) := by
  intro m
  induction m with
  | nil =>
      intro _
      exact .refl _
  | cons e rest ih =>
      intro hk
      obtain ⟨k', v'⟩ := e
      have hne : k ≠ k' := fun he ↦ hk (List.mem_cons.2 (.inl he))
      have hrest : k ∉ keys rest := fun he ↦ hk (List.mem_cons.2 (.inr he))
      unfold insert
      split
      · exact .refl _
      · exact ((ih hrest).cons _).trans (.swap _ _ _)

theorem keys_insert_perm {k : K} {v : V} {m : OrderedMap K V} (hk : k ∉ keys m) :
    (keys (insert k v m)).Perm (k :: keys m) := (insert_perm hk).map Prod.fst

theorem keys_erase (k : K) (m : OrderedMap K V) : keys (erase k m) = (keys m).filter (· ≠ k) := by
  unfold keys erase
  rw [List.filter_map]
  rfl

theorem mem_keys_erase {k k' : K} {m : OrderedMap K V} :
    k' ∈ keys (erase k m) ↔ k' ∈ keys m ∧ k' ≠ k := by
  rw [keys_erase]
  simp

/-- Erasing a key removes that key. -/
theorem keys_erase_perm {k : K} {m : OrderedMap K V} (hnodup : (keys m).Nodup) (hk : k ∈ keys m) :
    (keys m).Perm (k :: keys (erase k m)) := by
  have herase : (keys (erase k m)).Nodup := by
    rw [keys_erase]
    exact hnodup.filter _
  apply (List.perm_ext_iff_of_nodup hnodup (List.nodup_cons.2 ⟨?_, herase⟩)).2
  · intro k'
    rw [List.mem_cons, mem_keys_erase]
    constructor
    · intro hk'
      by_cases he : k' = k
      · exact .inl he
      · exact .inr ⟨hk', he⟩
    · rintro (rfl | ⟨hk', -⟩)
      · exact hk
      · exact hk'
  · intro hmem
    exact (mem_keys_erase.1 hmem).2 rfl

theorem next?_append {k : K} {v : V} {r : OrderedMap K V} {l : OrderedMap K V} (hk : k ∉ keys l) :
    next? k (l ++ (k, v) :: r) = some (r.head?.map Prod.fst) := by
  induction l with
  | nil => exact if_pos rfl
  | cons e l ih =>
      have hne : e.1 ≠ k := fun he ↦ hk (List.mem_cons.2 (.inl he.symm))
      have hl : k ∉ keys l := fun hmem ↦ hk (List.mem_cons.2 (.inr hmem))
      rw [List.cons_append, next?, if_neg hne]
      exact ih hl

/-- An iterator to an entry that has been erased cannot be advanced. -/
theorem next?_erase (k : K) (m : OrderedMap K V) : next? k (erase k m) = none := by
  induction m with
  | nil => rfl
  | cons e m ih =>
      unfold erase at ih ⊢
      by_cases he : e.1 = k
      · rw [List.filter_cons_of_neg (by simp [he])]
        exact ih
      · rw [List.filter_cons_of_pos (by simp [he]), next?, if_neg he]
        exact ih

theorem keys_set (k : K) (v : V) (m : OrderedMap K V) : keys (set k v m) = keys m := by
  unfold keys set
  rw [List.map_map]
  refine List.map_congr_left fun e _ ↦ ?_
  by_cases he : e.1 = k
  · rw [Function.comp_apply, if_pos he, he]
  · rw [Function.comp_apply, if_neg he]

/-- Changing one entry leaves the others where they are. -/
theorem set_split {k : K} {v : V} {m : OrderedMap K V} (hnodup : (keys m).Nodup)
    (hv : m.lookup k = some v) :
    ∃ l r, m = l ++ (k, v) :: r ∧ ∀ v', set k v' m = l ++ (k, v') :: r := by
  obtain ⟨l, r, rfl, -⟩ := List.lookup_eq_some_iff.1 hv
  refine ⟨l, r, rfl, fun v' ↦ ?_⟩
  unfold keys at hnodup
  rw [List.map_append, List.map_cons, List.nodup_middle, List.nodup_cons, List.mem_append,
    not_or] at hnodup
  have hother : ∀ {m' : OrderedMap K V}, k ∉ m'.map Prod.fst → set k v' m' = m' := fun hk ↦
    (List.map_congr_left fun e he ↦ if_neg fun heq : e.1 = k ↦
      hk (heq ▸ List.mem_map_of_mem he)).trans (List.map_id _)
  have hl := hother hnodup.1.1
  have hr := hother hnodup.1.2
  unfold set at hl hr ⊢
  rw [List.map_append, List.map_cons, hl, hr, if_pos rfl]

theorem mem_of_lookup {k : K} {v : V} {m : OrderedMap K V} (hv : m.lookup k = some v) : (k, v) ∈ m := by
  obtain ⟨l, r, rfl, -⟩ := List.lookup_eq_some_iff.1 hv
  exact List.mem_append_right _ List.mem_cons_self

theorem mem_set {k : K} {v : V} {m : OrderedMap K V} {e : K × V} (he : e ∈ set k v m) :
    e = (k, v) ∨ e ∈ m := by
  obtain ⟨e', he', rfl⟩ := List.mem_map.1 he
  split
  · exact .inl rfl
  · exact .inr he'

/-- An entry of another key is one of the map before. -/
theorem mem_set_or {k : K} {v : V} {m : OrderedMap K V} {e : K × V} (he : e ∈ set k v m) :
    e = (k, v) ∨ (e ∈ m ∧ e.1 ≠ k) := by
  obtain ⟨e', he', rfl⟩ := List.mem_map.1 he
  split
  case isTrue => exact .inl rfl
  case isFalse hne => exact .inr ⟨he', hne⟩

theorem lookup_of_mem {k : K} {v : V} {m : OrderedMap K V} (hnodup : (keys m).Nodup)
    (he : (k, v) ∈ m) : m.lookup k = some v := by
  obtain ⟨l, r, rfl⟩ := List.append_of_mem he
  unfold keys at hnodup
  rw [List.map_append, List.map_cons, List.nodup_middle, List.nodup_cons, List.mem_append,
    not_or] at hnodup
  refine List.lookup_eq_some_iff.2 ⟨l, r, rfl, fun e hl ↦ ?_⟩
  rw [bne_iff_ne]
  rintro rfl
  exact hnodup.1.1 (List.mem_map.2 ⟨e, hl, rfl⟩)

theorem exists_lookup {k : K} {m : OrderedMap K V} (hnodup : (keys m).Nodup) (hk : k ∈ keys m) :
    ∃ v, m.lookup k = some v := by
  obtain ⟨⟨k, v⟩, he, rfl⟩ := List.mem_map.1 hk
  exact ⟨v, lookup_of_mem hnodup he⟩

theorem lookup_set_self {k : K} {v v' : V} {m : OrderedMap K V} (hv : m.lookup k = some v) :
    (set k v' m).lookup k = some v' := by
  induction m with
  | nil => cases hv
  | cons e m ih =>
      obtain ⟨k₁, v₁⟩ := e
      by_cases hk : k₁ = k
      · subst hk
        have hset : set k₁ v' ((k₁, v₁) :: m) = (k₁, v') :: set k₁ v' m :=
          congrArg (· :: set k₁ v' m) (if_pos rfl)
        rw [hset, List.lookup_cons_self]
      · have hset : set k v' ((k₁, v₁) :: m) = (k₁, v₁) :: set k v' m :=
          congrArg (· :: set k v' m) (if_neg hk)
        have hkey : (k == k₁) = false := beq_eq_false_iff_ne.2 (Ne.symm hk)
        rw [List.lookup_cons, hkey] at hv
        rw [hset, List.lookup_cons, hkey]
        exact ih hv

theorem lookup_set_of_ne {k k' : K} {v : V} (m : OrderedMap K V) (hk : k' ≠ k) :
    (set k v m).lookup k' = m.lookup k' := by
  induction m with
  | nil => rfl
  | cons e m ih =>
      obtain ⟨k₁, v₁⟩ := e
      have hset : set k v ((k₁, v₁) :: m) = (if k₁ = k then (k, v) else (k₁, v₁)) :: set k v m := rfl
      rw [hset, List.lookup_cons, List.lookup_cons]
      by_cases hk₁ : k₁ = k
      · have hkey : (k' == k) = false := beq_eq_false_iff_ne.2 hk
        rw [if_pos hk₁, hk₁, hkey]
        exact ih
      · rw [if_neg hk₁]
        cases k' == k₁ with
        | true => rfl
        | false => exact ih

theorem set_set (k : K) (v v' : V) (m : OrderedMap K V) : set k v' (set k v m) = set k v' m := by
  unfold set
  rw [List.map_map]
  refine List.map_congr_left fun e _ ↦ ?_
  by_cases he : e.1 = k
  · rw [Function.comp_apply, if_pos he, if_pos he, if_pos rfl]
  · rw [Function.comp_apply, if_neg he, if_neg he]

/-- Changing the values of a map. -/
theorem lookup_mapValues {k : K} (f : K → V → V) (m : OrderedMap K V) :
    (m.map fun e ↦ (e.1, f e.1 e.2)).lookup k = (m.lookup k).map (f k) := by
  induction m with
  | nil => rfl
  | cons e m ih =>
      rw [List.map_cons, List.lookup_cons, List.lookup_cons]
      by_cases hk : k = e.1
      · subst hk
        rw [beq_self_eq_true]
        rfl
      · rw [beq_eq_false_iff_ne.2 hk]
        exact ih

end OrderedMap

end Datapath.Lib
