import Datapath.Lib.Tally
import Mathlib.Algebra.Order.Field.Basic
import Mathlib.Algebra.Order.Ring.Rat
import Mathlib.Data.List.Induction

/-!
# The measurer

The benchmark counts how often each duration has been measured, in a map, and prints
percentiles.  `percentile` goes through the map and adds the numbers up, until the part of
the calls that it has seen reaches the one that is asked for, or is close to it.  What it
returns is the least duration measured that meets this, whatever is measured while it runs
(`percentile_least`).

The map is as `count` and `percentile` copy it under the lock, each for itself.
-/

namespace Datapath.Samples

open Datapath.Lib

/-- What `percentile` needs of `double_t`, for values that are not NaN. -/
structure Doubles (D : Type*) where
  /-- The conversion from `uint64_t`. -/
  ofNat : ℕ → D
  add : D → D → D
  sub : D → D → D
  div : D → D → D
  /-- `0.0005`. -/
  tolerance : D

/-- `measurer`, with the durations in nanoseconds. -/
structure Measurer where
  timings : OrderedMap ℤ ℕ := []
deriving DecidableEq, Repr

namespace Measurer

variable {D : Type*} [LinearOrder D]

/-- `track`, with a duration. -/
def track (ms : Measurer) (duration : ℤ) : Measurer :=
  match ms.timings.lookup duration with
  | none => { ms with timings := ms.timings.insert duration 1 }
  | some n => { ms with timings := ms.timings.set duration (n + 1) }

def count (ms : Measurer) : ℕ := ms.timings.foldl (fun count kv ↦ count + kv.2) 0

end Measurer

namespace Doubles

variable {D : Type*} [LinearOrder D] (d : Doubles D)

/-- `is_equal`. -/
def isEqual (a b c : D) : Bool := a = b || (d.sub b c ≤ a && a ≤ d.add b c)

/-- The part of the calls that so many are. -/
def part (calls n : ℕ) : D := d.div (d.ofNat n) (d.ofNat calls)

/-- The loop of `percentile`, which has come to so many calls. -/
def accumulate (calls : ℕ) (percentile : D) : ℕ → OrderedMap ℤ ℕ → ℤ
  | _, [] => -1
  | accuCallsLast, kv :: rest =>
      let accuCallsNow := accuCallsLast + kv.2
      let percentileLast := d.part calls accuCallsLast
      let percentileNow := d.part calls accuCallsNow
      if d.isEqual percentile percentileNow d.tolerance ||
          (percentileLast < percentile && percentileNow > percentile) then kv.1
      else accumulate calls percentile accuCallsNow rest

/-- What follows the call of `count`, if `by_time` is not set.  Without a duration there is
no first one to return. -/
def percentile (calls : ℕ) (percentile : D) (ms : Measurer) : Option ℤ :=
  if percentile = d.ofNat 0 then ms.timings.head?.map Prod.fst
  else some (d.accumulate calls percentile 0 ms.timings)

/-- So many of the calls are the part that is asked for, or more, or close to it. -/
def Meets (calls : ℕ) (percentile : D) (n : ℕ) : Prop :=
  percentile ≤ d.part calls n ∨ d.isEqual percentile (d.part calls n) d.tolerance

variable {d}

/-- Equal values are equal for `is_equal`, whatever it rounds. -/
theorem isEqual_self (a c : D) : d.isEqual a a c := by simp [isEqual]

end Doubles

namespace Measurer

variable {D : Type*} [LinearOrder D] {d : Doubles D} {calls : ℕ} {percentile : D}

/-- The measurer that has been told of these durations. -/
def measured (durations : List ℤ) : Measurer := durations.foldl track {}

/-- A duration is one more occurrence of itself. -/
theorem tallies_track {ms : Measurer} {l : List ℤ} (h : ms.timings.Tallies l) (duration : ℤ) :
    (ms.track duration).timings.Tallies (l ++ [duration]) := by
  unfold track
  cases hn : ms.timings.lookup duration with
  | none =>
      refine h.insert fun hk ↦ ?_
      obtain ⟨n, hsome⟩ := OrderedMap.exists_lookup (h.sorted.imp ne_of_lt) hk
      exact nomatch hn.symm.trans hsome
  | some n => exact h.set hn

theorem measured_tallies (durations : List ℤ) : (measured durations).timings.Tallies durations := by
  induction durations using List.reverseRecOn with
  | nil => exact .nil
  | append_singleton durations duration ih =>
      unfold measured
      rw [List.foldl_append]
      exact tallies_track ih duration

/-- `count` is how many durations have been measured. -/
theorem count_measured (durations : List ℤ) : (measured durations).count = durations.length :=
  (measured_tallies durations).length

/-- **The loop of `percentile`** ends at the least of the remaining keys up to which there are
enough calls, if those before are too few and all are enough. -/
theorem accumulate_least {l : List ℤ} {left right : OrderedMap ℤ ℕ} (h : (left ++ right).Tallies l)
    (hfew : d.part calls left.occurrences.length < percentile)
    (hall : percentile ≤ d.part calls l.length) :
    ∃ k ∈ l, d.accumulate calls percentile left.occurrences.length right = k ∧
      d.Meets calls percentile (l.countP (· ≤ k)) ∧
      ∀ k' ∈ right.keys, k' < k → ¬ d.Meets calls percentile (l.countP (· ≤ k')) := by
  induction right generalizing left with
  | nil =>
      rw [List.append_nil] at h
      rw [h.occurrences.length_eq] at hfew
      exact absurd hall (not_le.2 hfew)
  | cons kv rest ih =>
      obtain ⟨k, n⟩ := kv
      have hcount : l.countP (· ≤ k) = left.occurrences.length + n := h.countP_le
      have hmem : k ∈ l := h.mem_keys.1 (List.mem_map_of_mem (List.mem_append_right _ List.mem_cons_self))
      have hsorted := h.sorted
      rw [OrderedMap.keys, List.map_append, List.map_cons, List.pairwise_append,
        List.pairwise_cons] at hsorted
      obtain ⟨-, ⟨hfirst, -⟩, -⟩ := hsorted
      unfold Doubles.accumulate
      dsimp only
      rw [← hcount]
      split
      case isTrue hhit =>
        refine ⟨k, hmem, rfl, ?_, fun k' hk' hlt ↦ ?_⟩
        · rcases (Bool.or_eq_true _ _).mp hhit with hequal | hbetween
          · exact .inr hequal
          · rw [Bool.and_eq_true, decide_eq_true_eq, decide_eq_true_eq] at hbetween
            exact .inl hbetween.2.le
        · rcases List.mem_cons.1 hk' with rfl | hk'
          · exact absurd hlt (lt_irrefl _)
          · exact absurd hlt (hfirst k' hk').le.not_gt
      case isFalse hmiss =>
        -- What has been seen up to here is still too few.
        rw [Bool.or_eq_true, Bool.and_eq_true, decide_eq_true_eq, decide_eq_true_eq, not_or, not_and] at hmiss
        obtain ⟨hnear, hpast⟩ := hmiss
        have hbelow : d.part calls (l.countP (· ≤ k)) < percentile := by
          refine lt_of_le_of_ne (not_lt.1 (hpast hfew)) fun heq ↦ hnear ?_
          rw [heq]
          exact Doubles.isEqual_self _ _
        have hstep : (left ++ [(k, n)]).occurrences.length = l.countP (· ≤ k) := by
          rw [hcount]
          simp
        have hsplit : ((left ++ [(k, n)]) ++ rest).Tallies l := by
          rw [List.append_assoc]
          exact h
        obtain ⟨k₁, hk₁, hresult, hmeets, hleast⟩ := ih hsplit (hstep ▸ hbelow)
        rw [hstep] at hresult
        refine ⟨k₁, hk₁, hresult, hmeets, fun k' hk' hlt ↦ ?_⟩
        rcases List.mem_cons.1 hk' with rfl | hk'
        · exact fun hm ↦ hm.elim (not_le.2 hbelow) hnear
        · exact hleast k' hk' hlt

/-- **`percentile` returns the least duration** that, with those below it, is the part of
the calls that it is asked for, or close to it.  Other threads may have measured `between`
after it has counted the calls. -/
theorem percentile_least (d : Doubles D) (percentile : D) (before between : List ℤ) (hsome : before ≠ [])
    (hmono : Monotone (d.part before.length)) (hzero : d.part before.length 0 = d.ofNat 0)
    (hpos : d.ofNat 0 ≤ percentile) (hall : percentile ≤ d.part before.length before.length) :
    ∃ k ∈ before ++ between,
      d.percentile (measured before).count percentile (measured (before ++ between)) = some k ∧
        d.Meets before.length percentile ((before ++ between).countP (· ≤ k)) ∧
        ∀ k' ∈ before ++ between, k' < k →
          ¬ d.Meets before.length percentile ((before ++ between).countP (· ≤ k')) := by
  have htallies := measured_tallies (before ++ between)
  rw [count_measured]
  unfold Doubles.percentile
  split
  case isTrue heq =>
    obtain ⟨duration, hduration⟩ := List.exists_mem_of_ne_nil before hsome
    cases htimings : (measured (before ++ between)).timings with
    | nil =>
        rw [htimings] at htallies
        have hmem := htallies.mem_keys.2 (List.mem_append_left between hduration)
        exact absurd hmem List.not_mem_nil
    | cons kv rest =>
        rw [htimings] at htallies
        have hsorted := List.pairwise_cons.1 htallies.sorted
        refine ⟨kv.1, htallies.mem_keys.1 List.mem_cons_self, rfl, ?_, fun k' hk' hlt ↦ ?_⟩
        · refine .inl ?_
          rw [heq, ← hzero]
          exact hmono (Nat.zero_le _)
        · rcases List.mem_cons.1 (htallies.mem_keys.2 hk') with rfl | hk'
          · exact absurd hlt (lt_irrefl _)
          · exact absurd hlt (hsorted.1 k' hk').le.not_gt
  case isFalse hne =>
    have hfew : d.part before.length (OrderedMap.occurrences ([] : OrderedMap ℤ ℕ)).length <
        percentile := by
      rw [OrderedMap.occurrences_nil, List.length_nil, hzero]
      exact lt_of_le_of_ne hpos (Ne.symm hne)
    have hmore : percentile ≤ d.part before.length (before ++ between).length := by
      refine hall.trans (hmono ?_)
      rw [List.length_append]
      exact Nat.le_add_right _ _
    have hsplit : OrderedMap.Tallies ([] ++ (measured (before ++ between)).timings)
        (before ++ between) := htallies
    obtain ⟨k, hk, hresult, hmeets, hleast⟩ := accumulate_least hsplit hfew hmore
    exact ⟨k, hk, congrArg some hresult, hmeets, fun k' hk' ↦ hleast k' (htallies.mem_keys.2 hk')⟩

/-- Exact arithmetic. -/
def rationals : Doubles ℚ where
  ofNat n := n
  add := (· + ·)
  sub := (· - ·)
  div := (· / ·)
  tolerance := 5 / 10000

/-- The median of four durations, and of one that is measured too late to be counted. -/
theorem percentile_least_median : rationals.percentile 4 (1 / 2) (measured [30, 10, 20, 10, 5]) = some 10 ∧
    ∀ k' ∈ [(30 : ℤ), 10, 20, 10, 5], k' < 10 →
      ¬ rationals.Meets 4 (1 / 2) ([(30 : ℤ), 10, 20, 10, 5].countP (· ≤ k')) := by
  have hmono : Monotone (rationals.part 4) := fun a b hab ↦
    div_le_div_of_nonneg_right (Nat.cast_le.2 hab) (Nat.cast_nonneg 4)
  obtain ⟨k, -, hresult, -, hleast⟩ := percentile_least rationals (1 / 2) [30, 10, 20, 10] [5]
    (List.cons_ne_nil _ _) hmono (by decide +kernel) (by decide +kernel) (by decide +kernel)
  have hmedian : rationals.percentile 4 (1 / 2) (measured [30, 10, 20, 10, 5]) = some 10 := by decide +kernel
  cases hmedian.symm.trans hresult
  exact ⟨hmedian, hleast⟩

end Measurer

end Datapath.Samples
