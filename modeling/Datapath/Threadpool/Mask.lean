import Datapath.Threadpool.Balance
import Mathlib.Algebra.Group.Nat.Defs

/-!
# Masks

What the bits of a mask say about the workers of a pool that its constructor has made.
The test of a mask looks at its common bits with the number of workers less one, while a
worker is chosen by its common bits with the affinity of the worker; and that affinity is
`1 << idx` in 32 bits, extended to 64 with its sign.
-/

namespace Datapath.Threadpool

open Datapath.Lib

/-! ## Words, bit by bit -/

theorem and_ne_zero_iff {a b : Affinity} :
    a &&& b ≠ 0 ↔ ∃ i, a.getLsbD i = true ∧ b.getLsbD i = true := by
  constructor
  · intro hne
    by_contra hnone
    refine hne (BitVec.eq_of_getLsbD_eq fun i _ ↦ ?_)
    change (a &&& b).getLsbD i = (0#64).getLsbD i
    rw [BitVec.getLsbD_and, BitVec.getLsbD_zero, Bool.and_eq_false_iff]
    by_cases ha : a.getLsbD i = true
    · exact .inr (Bool.eq_false_iff.2 fun hb ↦ hnone ⟨i, ha, hb⟩)
    · exact .inl (Bool.eq_false_iff.2 ha)
  · rintro ⟨i, ha, hb⟩ hzero
    have hbit : (a &&& b).getLsbD i = true := by rw [BitVec.getLsbD_and, ha, hb]; rfl
    have hnone : (0#64).getLsbD i = false := BitVec.getLsbD_zero
    rw [hzero] at hbit
    exact Bool.false_ne_true (hnone.symm.trans hbit)

/-- The bit that is shifted, and copies of it if it is the sign. -/
theorem getLsbD_workerAffinity (idx i : ℕ) : (workerAffinity idx).getLsbD i = true ↔
    i < 64 ∧ (i = idx % 32 ∨ idx % 32 = 31 ∧ 31 ≤ i) := by
  have hmod : idx % 32 < 32 := Nat.mod_lt _ (by decide)
  have hshift : ∀ k, (1#32 <<< (idx % 32)).getLsbD k = decide (k = idx % 32) := by
    intro k
    rw [BitVec.getLsbD_shiftLeft, BitVec.getLsbD_one]
    by_cases hk : k = idx % 32
    · simp [hk, hmod]
    · by_cases hlt : k < idx % 32
      · simp [hk, hlt]
      · have hpos : k - idx % 32 ≠ 0 := by omega
        simp [hk, hpos]
  unfold workerAffinity
  rw [BitVec.getLsbD_signExtend, BitVec.msb_eq_getLsbD_last, hshift, hshift]
  by_cases hi : i < 32
  · rw [if_pos hi, Bool.and_eq_true, decide_eq_true_iff, decide_eq_true_iff]
    omega
  · rw [if_neg hi, Bool.and_eq_true, decide_eq_true_iff, decide_eq_true_iff]
    omega

/-- The mask has a bit from 31 on if the shift by `idx` reaches the sign of the `int`, and
else the bit that `1` is shifted to. -/
def Reaches (mask : Affinity) (idx : ℕ) : Prop :=
  if idx % 32 = 31 then 2 ^ 31 ≤ mask.toNat else mask.getLsbD (idx % 32) = true

theorem reaches_of_lt {mask : Affinity} {idx : ℕ} (h : idx < 31) :
    Reaches mask idx ↔ mask.getLsbD idx = true := by
  have hmod : idx % 32 = idx := Nat.mod_eq_of_lt (by omega)
  unfold Reaches
  rw [hmod, if_neg (by omega)]

theorem le_toNat_iff {mask : Affinity} : 2 ^ 31 ≤ mask.toNat ↔ ∃ i, 31 ≤ i ∧ mask.getLsbD i = true := by
  constructor
  · intro hle
    obtain ⟨i, hi, hbit⟩ := Nat.exists_ge_and_testBit_of_ge_two_pow hle
    exact ⟨i, hi, hbit⟩
  · rintro ⟨i, hi, hbit⟩
    by_contra hlt
    have hsmall : mask.toNat < 2 ^ i := (not_le.1 hlt).trans_le (Nat.pow_le_pow_right (by decide) hi)
    exact Bool.false_ne_true ((Nat.testBit_lt_two_pow hsmall).symm.trans hbit)

theorem workerAffinity_and_ne_zero {mask : Affinity} {idx : ℕ} :
    workerAffinity idx &&& mask ≠ 0 ↔ Reaches mask idx := by
  rw [and_ne_zero_iff]
  unfold Reaches
  by_cases hsign : idx % 32 = 31
  · rw [if_pos hsign, le_toNat_iff]
    constructor
    · rintro ⟨i, hi, hbit⟩
      rw [getLsbD_workerAffinity] at hi
      exact ⟨i, by omega, hbit⟩
    · rintro ⟨i, hi, hbit⟩
      exact ⟨i, (getLsbD_workerAffinity _ _).2 ⟨BitVec.lt_of_getLsbD hbit, .inr ⟨hsign, hi⟩⟩, hbit⟩
  · rw [if_neg hsign]
    constructor
    · rintro ⟨i, hi, hbit⟩
      obtain ⟨-, rfl | ⟨habs, -⟩⟩ := (getLsbD_workerAffinity _ _).1 hi
      · exact hbit
      · exact absurd habs hsign
    · intro hbit
      exact ⟨_, (getLsbD_workerAffinity _ _).2 ⟨BitVec.lt_of_getLsbD hbit, .inl rfl⟩, hbit⟩

namespace Pool

variable {p : Pool} {n idx : ℕ} {w : Worker} {mask : Affinity}

/-- The workers that the constructor makes for `n` hardware threads, with any queues. -/
def Built (n : ℕ) (p : Pool) : Prop :=
  p.workers.map (fun kv ↦ (kv.1, kv.2.affinity)) = (List.range n).map fun idx ↦ (idx, workerAffinity idx)

theorem built_start (n : ℕ) : (start n).Built n := by
  unfold Built start
  rw [List.map_map]
  rfl

theorem Built.keys (h : p.Built n) : OrderedMap.keys p.workers = List.range n := by
  have hfst := congrArg (List.map Prod.fst) h
  rw [List.map_map, List.map_map] at hfst
  exact hfst.trans (List.map_id _)

theorem Built.sorted (h : p.Built n) : p.Sorted := by
  unfold Sorted
  rw [h.keys]
  exact List.pairwise_lt_range

theorem Built.length (h : p.Built n) : p.workers.length = n := by
  have hkeys := congrArg List.length h.keys
  rwa [OrderedMap.keys, List.length_map, List.length_range] at hkeys

theorem Built.of_lookup (h : p.Built n) (hw : p.workers.lookup idx = some w) :
    idx < n ∧ w.affinity = workerAffinity idx := by
  have hmem : (idx, w.affinity) ∈ (List.range n).map fun idx ↦ (idx, workerAffinity idx) :=
    h ▸ List.mem_map.2 ⟨(idx, w), OrderedMap.mem_of_lookup hw, rfl⟩
  obtain ⟨idx', hidx, heq⟩ := List.mem_map.1 hmem
  obtain ⟨rfl, haffinity⟩ := Prod.mk.inj heq
  exact ⟨List.mem_range.1 hidx, haffinity.symm⟩

theorem Built.lookup_ne (h : p.Built n) (hn : n ≤ 31) (hidx : 31 ≤ idx) (w : Worker) :
    p.workers.lookup idx ≠ some w := by
  intro hw
  have hlt := (h.of_lookup hw).1
  omega

theorem Built.exists_lookup (h : p.Built n) (hidx : idx < n) : ∃ w, p.workers.lookup idx = some w := by
  have hmem : idx ∈ OrderedMap.keys p.workers := h.keys ▸ List.mem_range.2 hidx
  obtain ⟨⟨idx, w⟩, hw, rfl⟩ := List.mem_map.1 hmem
  exact ⟨w, OrderedMap.lookup_of_mem h.sorted.nodup hw⟩

theorem Built.meets (h : p.Built n) (hw : p.workers.lookup idx = some w) :
    w.affinity &&& mask ≠ 0 ↔ Reaches mask idx := by
  rw [(h.of_lookup hw).2]
  exact workerAffinity_and_ne_zero

/-! ## The test of a mask -/

theorem toNat_mod_eq_zero : mask.toNat % 2 ^ n = 0 ↔ ∀ i < n, ¬ mask.getLsbD i = true := by
  constructor
  · intro hzero i hi hbit
    have hmod : (mask.toNat % 2 ^ n).testBit i = true := by
      rw [Nat.testBit_mod_two_pow, decide_eq_true hi, Bool.true_and]
      exact hbit
    rw [hzero, Nat.zero_testBit] at hmod
    cases hmod
  · intro hall
    refine Nat.eq_of_testBit_eq fun i ↦ ?_
    rw [Nat.testBit_mod_two_pow, Nat.zero_testBit, Bool.and_eq_false_iff]
    by_cases hi : i < n
    · exact .inr (Bool.eq_false_iff.2 (hall i hi))
    · exact .inl (decide_eq_false hi)

/-- No worker's affinity meets a mask: its low `n` bits are zero, or all of them if there
is a worker whose affinity has the sign in it. -/
def Unusable (n : ℕ) (mask : Affinity) : Prop := if n < 32 then mask.toNat % 2 ^ n = 0 else mask = 0

theorem Built.unusable_iff (h : p.Built n) :
    (∀ idx w, p.workers.lookup idx = some w → w.affinity &&& mask = 0) ↔ Unusable n mask := by
  have hreaches : (∀ idx w, p.workers.lookup idx = some w → w.affinity &&& mask = 0) ↔
      ∀ idx < n, ¬ Reaches mask idx := by
    constructor
    · intro hall idx hidx
      obtain ⟨w, hw⟩ := h.exists_lookup hidx
      exact fun hr ↦ (h.meets hw).2 hr (hall idx w hw)
    · intro hall idx w hw
      by_contra hne
      exact hall idx (h.of_lookup hw).1 ((h.meets hw).1 hne)
  rw [hreaches]
  unfold Unusable
  by_cases hn : n < 32
  · rw [if_pos hn, toNat_mod_eq_zero]
    refine forall₂_congr fun idx hidx ↦ ?_
    rw [reaches_of_lt (show idx < 31 by omega)]
  · rw [if_neg hn]
    constructor
    · intro hall
      have hhigh : ¬ 2 ^ 31 ≤ mask.toNat := hall 31 (show 31 < n by omega)
      refine BitVec.eq_of_getLsbD_eq fun i _ ↦ ?_
      have hbit : mask.getLsbD i = false := by
        refine Bool.eq_false_iff.2 fun hbit ↦ ?_
        by_cases hi : i < 31
        · exact hall i (show i < n by omega) ((reaches_of_lt hi).2 hbit)
        · exact hhigh (le_toNat_iff.2 ⟨i, not_lt.1 hi, hbit⟩)
      exact hbit.trans BitVec.getLsbD_zero.symm
    · rintro rfl idx - hr
      exact workerAffinity_and_ne_zero.2 hr BitVec.and_zero

/-- A mask that no worker's affinity meets does not pass the test. -/
theorem Unusable.check (h : Unusable n mask) (hn : 1 ≤ n) : mask &&& (BitVec.ofNat 64 n - 1) = 0 := by
  unfold Unusable at h
  by_cases hlt : n < 32
  · rw [if_pos hlt, toNat_mod_eq_zero] at h
    by_contra hne
    obtain ⟨i, hmask, hcount⟩ := and_ne_zero_iff.1 hne
    have hpred : BitVec.ofNat 64 n - 1 = BitVec.ofNat 64 (n - 1) := by
      have hone : (1 : Affinity).toNat = 1 := rfl
      apply BitVec.eq_of_toNat_eq
      rw [BitVec.toNat_sub, BitVec.toNat_ofNat, BitVec.toNat_ofNat, hone]
      omega
    rw [hpred, BitVec.getLsbD_ofNat, Bool.and_eq_true] at hcount
    have hle : 2 ^ i ≤ n - 1 := Nat.ge_two_pow_of_testBit hcount.2
    have hi : i < n := by have := Nat.lt_two_pow_self (n := i); omega
    exact h i hi hmask
  · rw [if_neg hlt] at h
    rw [h]
    exact BitVec.zero_and

/-- The exception of a mask that does not pass the test. -/
def misfit : String := "mask does not fit any thread"

theorem push_eq_misfit {task : Task} (hf : task.function.isSome = true) :
    (p.push (some task)).1 = .error misfit ↔
      task.mask &&& (BitVec.ofNat 64 p.workers.length - 1) = 0 := by
  have hsome : task.function.isNone = false := Option.isNone_eq_false_iff.2 hf
  by_cases htest : task.mask &&& (BitVec.ofNat 64 p.workers.length - 1) = 0
  · have hcheck : p.check (some task) = .error misfit := by
      simp only [check, hsome, if_pos htest]
      rfl
    refine iff_of_true ?_ htest
    simp only [push, hcheck]
  · have hcheck : p.check (some task) = .ok () := by
      simp only [check, hsome, if_neg htest]
      rfl
    refine iff_of_false ?_ htest
    simp only [push, hcheck]
    have hne : ∀ b : Bool, (.ok b : Except String Bool) ≠ .error misfit := by rintro _ ⟨⟩
    split
    · exact hne _
    · exact hne _

theorem clear_eq_misfit : (p.clear mask).1 = .error misfit ↔
    mask &&& (BitVec.ofNat 64 p.workers.length - 1) = 0 := by
  unfold clear
  split
  · exact iff_of_true rfl ‹_›
  · exact iff_of_false nofun ‹_›

/-- **What the test of a mask is worth.**  `pool::push` and `pool::clear` refuse a mask
exactly if it is not for any worker, if and only if the mask has a bit in common with the
number of workers less one, or is not for any worker. -/
theorem misfit_iff (h : p.Built n) (hn : 1 ≤ n) {task : Task} (hf : task.function.isSome = true)
    (mask : Affinity) :
    (((p.push (some task)).1 = .error misfit ↔
        ∀ idx w, p.workers.lookup idx = some w → w.affinity &&& task.mask = 0) ↔
      task.mask &&& (BitVec.ofNat 64 n - 1) ≠ 0 ∨ Unusable n task.mask) ∧
    (((p.clear mask).1 = .error misfit ↔
        ∀ idx w, p.workers.lookup idx = some w → w.affinity &&& mask = 0) ↔
      mask &&& (BitVec.ofNat 64 n - 1) ≠ 0 ∨ Unusable n mask) := by
  have hexact : ∀ mask : Affinity, ((mask &&& (BitVec.ofNat 64 n - 1) = 0 ↔ Unusable n mask) ↔
      mask &&& (BitVec.ofNat 64 n - 1) ≠ 0 ∨ Unusable n mask) := by
    intro mask
    have hcheck : Unusable n mask → mask &&& (BitVec.ofNat 64 n - 1) = 0 := fun hu ↦ hu.check hn
    constructor
    · intro hiff
      by_cases hzero : mask &&& (BitVec.ofNat 64 n - 1) = 0
      · exact .inr (hiff.1 hzero)
      · exact .inl hzero
    · rintro (hne | hu)
      · exact iff_of_false hne fun hu ↦ hne (hcheck hu)
      · exact iff_of_true (hcheck hu) hu
  rw [push_eq_misfit hf, clear_eq_misfit, h.unusable_iff, h.unusable_iff, h.length]
  exact ⟨hexact task.mask, hexact mask⟩

/-- Four workers, and the bit of the third one. -/
theorem misfit_iff_four : ¬ (((start 4).push (some ⟨some 0, 4⟩)).1 = .error misfit ↔
      ∀ idx w, (start 4).workers.lookup idx = some w → w.affinity &&& 4 = 0) ∧
    (((start 4).clear 6).1 = .error misfit ↔
      ∀ idx w, (start 4).workers.lookup idx = some w → w.affinity &&& 6 = 0) := by
  have hfunction : (⟨some 0, 4⟩ : Task).function.isSome = true := rfl
  obtain ⟨hpush, hclear⟩ := misfit_iff (built_start 4) (by decide) hfunction 6
  constructor
  · rw [hpush]
    unfold Unusable
    decide
  · exact hclear.2 (.inl (by decide))

/-- The test refuses every mask if there is one worker only, also one that is for that worker. -/
theorem misfit_one : ((start 1).push (some { function := some 0 })).1 = .error misfit ∧
    ¬ ∀ idx w, (start 1).workers.lookup idx = some w → w.affinity &&& defaultMask = 0 := by
  refine ⟨rfl, fun hall ↦ ?_⟩
  exact absurd (hall 0 _ rfl) (by decide)

/-! ## The workers of a mask -/

/-- An accepted task is in the queue of a worker whose bit its mask has. -/
def PlacesOnBit (n : ℕ) (p : Pool) (task : Task) : Prop :=
  (p.push (some task)).1 = .ok true → ∃ i w, i < n ∧ task.mask.getLsbD i = true ∧
    p.workers.lookup i = some w ∧
    (p.push (some task)).2.queue i = some (w.queue ++ [⟨w.pushed.length, task⟩])

/-- The queues that are cleared are those of the workers whose bits the mask has. -/
def ClearsBits (p : Pool) (mask : Affinity) : Prop :=
  (p.clear mask).1 = .ok () → ∀ i w, p.workers.lookup i = some w →
    (p.clear mask).2.queue i = some (if mask.getLsbD i then [] else w.queue)

/-- A task is accepted: the least loaded worker has to be one whose bit is in the mask. -/
theorem placed_iff (h : p.Built n) {task : Task} (hleast : p.LeastLoaded task.mask idx w) :
    (∃ i w', i < n ∧ task.mask.getLsbD i = true ∧ p.workers.lookup i = some w' ∧
      (p.setWorker idx (w.append task)).queue i = some (w'.queue ++ [⟨w'.pushed.length, task⟩])) ↔
    task.mask.getLsbD idx = true := by
  constructor
  · rintro ⟨i, w', -, hbit, hw', hqueue⟩
    by_cases hi : i = idx
    · exact hi ▸ hbit
    · have hsame : p.queue i = some w'.queue := Option.map_eq_some_iff.2 ⟨w', hw', rfl⟩
      rw [queue_setWorker_of_ne _ _ hi, hsame] at hqueue
      exact absurd (List.self_eq_append_right.1 (Option.some.inj hqueue)) (List.cons_ne_nil _ _)
  · intro hbit
    exact ⟨idx, w, (h.of_lookup hleast.lookup).1, hbit, hleast.lookup, queue_setWorker_self hleast.lookup⟩

/-- A pool places a task on a bit of its mask unless a worker from 31 on, whose affinity
meets the mask although the mask does not have its bit, is the least loaded one. -/
theorem placesOnBit_iff (h : p.Built n) (task : Task) : PlacesOnBit n p task ↔
    p.check (some task) ≠ .ok () ∨ ∀ i w, 31 ≤ i → p.workers.lookup i = some w →
      Reaches task.mask i → task.mask.getLsbD i = false → maxCount ≤ w.queue.length ∨
        ∃ j w', p.workers.lookup j = some w' ∧ Reaches task.mask j ∧
          (w'.queue.length < w.queue.length ∨ w'.queue.length = w.queue.length ∧ j < i) := by
  have hcases := push_cases h.sorted (some task)
  unfold PlacesOnBit
  generalize p.push (some task) = r at hcases ⊢
  cases hcases with
  | thrown hcheck =>
      refine iff_of_true nofun (.inl fun hok ↦ ?_)
      rw [hcheck] at hok
      cases hok
  | refused hcheck hnone =>
      refine iff_of_true nofun (.inr fun i w _ hw hr _ ↦ .inl ?_)
      exact hnone i w hw ((h.meets hw).2 hr)
  | @accepted _ idx w hcheck hleast hlt =>
      rw [forall_prop_of_true rfl, placed_iff h hleast, or_iff_right (not_not.2 hcheck)]
      constructor
      · intro hbit i w' _ hw' hr hnot
        right
        refine ⟨idx, w, hleast.lookup, (h.meets hleast.lookup).1 hleast.meets, ?_⟩
        have hne : idx ≠ i := by
          rintro rfl
          exact Bool.false_ne_true (hnot.symm.trans hbit)
        rcases hleast.least i w' hw' ((h.meets hw').2 hr) with hlt | ⟨heq, hle⟩
        · exact .inl hlt
        · exact .inr ⟨heq, lt_of_le_of_ne hle hne⟩
      · intro hall
        have hr : Reaches task.mask idx := (h.meets hleast.lookup).1 hleast.meets
        by_contra hbit
        have hhigh : 31 ≤ idx := by
          by_contra hlow
          exact hbit ((reaches_of_lt (not_le.1 hlow)).1 hr)
        rcases hall idx w hhigh hleast.lookup hr (Bool.eq_false_iff.2 hbit) with
          hfull | ⟨j, w', hw', hr', hbetter⟩
        · exact absurd hlt (not_lt.2 hfull)
        · rcases hleast.least j w' hw' ((h.meets hw').2 hr') with hlt' | ⟨heq, hle⟩
          · omega
          · omega

theorem queue_clear (htest : ¬ mask &&& (BitVec.ofNat 64 p.workers.length - 1) = 0)
    (hw : p.workers.lookup idx = some w) :
    (p.clear mask).2.queue idx = some (if w.affinity &&& mask = 0 then w.queue else []) := by
  have hmap := OrderedMap.lookup_mapValues (k := idx)
    (fun _ v ↦ if v.affinity &&& mask = 0 then v else v.empty) p.workers
  unfold clear queue
  rw [if_neg htest, hmap, hw]
  by_cases hmeets : w.affinity &&& mask = 0
  · simp only [if_pos hmeets, Option.map_some]
  · simp only [if_neg hmeets, Option.map_some]
    rfl

/-- A queue is cleared for one reason and should be for another. -/
theorem cleared_eq_iff {P : Prop} [Decidable P] {b : Bool} {queue : List Entry} :
    some (if P then queue else []) = some (if b = true then [] else queue) ↔
      (¬ P ↔ b = true) ∨ queue = [] := by
  by_cases hP : P
  · cases b with
    | true => simp [hP]
    | false => simp [hP]
  · cases b with
    | true => simp [hP]
    | false => simp [hP, eq_comm]

/-- A pool clears the queues of the bits of a mask unless a worker from 31 on has tasks,
and its affinity meets the mask although the mask does not have its bit, or the other way
round. -/
theorem clearsBits_iff (h : p.Built n) (mask : Affinity) : ClearsBits p mask ↔
    mask &&& (BitVec.ofNat 64 n - 1) = 0 ∨ ∀ i w, 31 ≤ i → p.workers.lookup i = some w →
      (Reaches mask i ↔ mask.getLsbD i = true) ∨ w.queue = [] := by
  by_cases htest : mask &&& (BitVec.ofNat 64 n - 1) = 0
  · refine iff_of_true (fun hok ↦ ?_) (.inl htest)
    have hthrown : (p.clear mask).1 = .error misfit := clear_eq_misfit.2 (h.length ▸ htest)
    rw [hthrown] at hok
    cases hok
  · have hpass : ¬ mask &&& (BitVec.ofNat 64 p.workers.length - 1) = 0 := h.length.symm ▸ htest
    have hok : (p.clear mask).1 = .ok () := by
      unfold clear
      rw [if_neg hpass]
    have hexact : ∀ i w, p.workers.lookup i = some w →
        ((p.clear mask).2.queue i = some (if mask.getLsbD i = true then [] else w.queue) ↔
          (Reaches mask i ↔ mask.getLsbD i = true) ∨ w.queue = []) := by
      intro i w hw
      rw [queue_clear hpass hw, cleared_eq_iff, ← h.meets hw]
    unfold ClearsBits
    rw [forall_prop_of_true hok, or_iff_right htest]
    constructor
    · intro hall i w _ hw
      exact (hexact i w hw).1 (hall i w hw)
    · intro hall i w hw
      rw [hexact i w hw]
      by_cases hi : i < 31
      · exact .inl (reaches_of_lt hi)
      · exact hall i w (not_lt.1 hi) hw

/-- **What the bits of a mask mean.**  Conditions under which `pool::push` places a task on a
bit of its mask, and `pool::clear` clears the queues of the bits of a mask. -/
theorem mask_bits_iff (h : p.Built n) (task : Task) (mask : Affinity) :
    (PlacesOnBit n p task ↔
      p.check (some task) ≠ .ok () ∨ ∀ i w, 31 ≤ i → p.workers.lookup i = some w →
        Reaches task.mask i → task.mask.getLsbD i = false → maxCount ≤ w.queue.length ∨
          ∃ j w', p.workers.lookup j = some w' ∧ Reaches task.mask j ∧
            (w'.queue.length < w.queue.length ∨ w'.queue.length = w.queue.length ∧ j < i)) ∧
    (ClearsBits p mask ↔
      mask &&& (BitVec.ofNat 64 n - 1) = 0 ∨ ∀ i w, 31 ≤ i → p.workers.lookup i = some w →
        (Reaches mask i ↔ mask.getLsbD i = true) ∨ w.queue = []) :=
  ⟨placesOnBit_iff h task, clearsBits_iff h mask⟩

/-- A pool of up to 31 workers keeps to the bits of a mask. -/
theorem mask_bits_of_le (h : p.Built n) (hn : n ≤ 31) (task : Task) (mask : Affinity) :
    PlacesOnBit n p task ∧ ClearsBits p mask := by
  constructor
  · exact (placesOnBit_iff h task).2 (.inr fun i w hi hw ↦ absurd hw (h.lookup_ne hn hi w))
  · exact (clearsBits_iff h mask).2 (.inr fun i w hi hw ↦ absurd hw (h.lookup_ne hn hi w))

/-- Four workers with queues of different lengths, and all the bits below 31. -/
theorem mask_bits_iff_four : PlacesOnBit 4 unevenFour ⟨some 3, 6⟩ ∧ ClearsBits unevenFour 6 := by
  have hbuilt : unevenFour.Built 4 := rfl
  have hlow : ∀ {i}, 31 ≤ i → ∀ w, unevenFour.workers.lookup i ≠ some w :=
    hbuilt.lookup_ne (by decide)
  obtain ⟨hpush, hclear⟩ := mask_bits_iff hbuilt ⟨some 3, 6⟩ 6
  constructor
  · exact hpush.2 (.inr fun i w hi hw ↦ absurd hw (hlow hi w))
  · exact hclear.2 (.inr fun i w hi hw ↦ absurd hw (hlow hi w))

/-- A pool of 32 workers, the first of which has a task. -/
def firstLoaded : Pool := ((start 32).push (some ⟨some 0, 1⟩)).2

/-- The worker 31 gets a task for the workers 0 and 40, and loses it when the queues of
these are cleared. -/
theorem mask_bits_sign : firstLoaded.Built 32 ∧
    ¬ PlacesOnBit 32 firstLoaded ⟨some 1, 0x10000000001⟩ ∧
    ¬ ClearsBits (firstLoaded.push (some ⟨some 1, 0x10000000001⟩)).2 0x10000000001 := by
  refine ⟨rfl, fun hplaces ↦ ?_, fun hclears ↦ ?_⟩
  · obtain ⟨i, w, hi, hbit, hw, hqueue⟩ := hplaces rfl
    have hfirst : ∀ i < 32, (0x10000000001 : Affinity).getLsbD i = true → i = 0 := by decide
    cases hfirst i hi hbit
    cases hw
    exact absurd (congrArg (Option.map List.length) hqueue) (by decide)
  · have hqueue := hclears rfl 31 _ rfl
    exact absurd (congrArg (Option.map List.length) hqueue) (by decide)

end Pool

end Datapath.Threadpool
