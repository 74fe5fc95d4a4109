import Intake.Retry
import Mathlib.Algebra.BigOperators.Intervals
import Mathlib.Data.ENat.Lattice
/-!
# Schedule — how often a call is made, and when

A call is made until it settles, that is, succeeds or fails for a reason that does not pass, and at most once more than
there are retries.  All that happens is a call, and then for each retry a sleep and a call (`RetryPolicy.runFrom_log`).
The sleeps grow, to a limit: they are the first one, doubled and doubled again, as long as 32 bits hold the factor, and
for all attempts if the largest factor reaches the limit.
-/
namespace Intake

/-- The longest span that a clock of 64 bits for the seconds can hold. -/
def Duration.longest : Duration := ofSeconds (2 ^ 64 - 1) + 999999999

/-- A span so many times, or the longest span if that is longer. -/
def Duration.times (span : Duration) (n : Nat) : Duration := min (span * n) longest

namespace RetryPolicy

/-! ## The sleeps -/

variable (policy : RetryPolicy)

/-- The factor is the power of two, as long as 32 bits hold it, and then stays. -/
theorem backoff_eq_min (attempt : Nat) :
    policy.backoff attempt = min (policy.base * min (2 ^ attempt) maxFactor) policy.limit := by
  have hmax : maxFactor = 2 ^ 32 - 1 := rfl
  have hfactor : (if attempt < 32 then Nat.pow 2 attempt else maxFactor) = min (2 ^ attempt) maxFactor := by
    rw [Nat.pow_eq]
    split
    · rename_i hlt
      have hpow : 2 ^ attempt ≤ 2 ^ 31 := Nat.pow_le_pow_right (by decide) (Nat.le_of_lt_succ hlt)
      exact (Nat.min_eq_left (by omega)).symm
    · rename_i hle
      have hpow : 2 ^ 32 ≤ 2 ^ attempt := Nat.pow_le_pow_right (by decide) (Nat.not_lt.1 hle)
      exact (Nat.min_eq_right (by omega)).symm
  rw [backoff, hfactor]

theorem backoff_mono : Monotone policy.backoff := by
  intro a b h
  rw [backoff_eq_min, backoff_eq_min]
  have hpow : 2 ^ a ≤ 2 ^ b := Nat.pow_le_pow_right (by decide) h
  exact min_le_min_right _ (Nat.mul_le_mul_left _ (min_le_min_right _ hpow))

theorem backoff_le_limit (attempt : Nat) : policy.backoff attempt ≤ policy.limit := Nat.min_le_right _ _

theorem backoff_of_le {attempt : Nat} (h : attempt ≤ 31) :
    policy.backoff attempt = min (policy.base * 2 ^ attempt) policy.limit := by
  rw [backoff, if_pos (Nat.lt_succ_of_le h)]
  rfl

/-- If the largest factor reaches the limit, the factor does not matter any more once it is that large. -/
theorem backoff_of_limit_le (h : policy.limit ≤ policy.base * (2 ^ 32 - 1)) (attempt : Nat) :
    policy.backoff attempt = min (policy.base * 2 ^ attempt) policy.limit := by
  rw [backoff_eq_min]
  rcases Nat.le_total (2 ^ attempt) maxFactor with hle | hle
  · rw [Nat.min_eq_left hle]
  · have hlimit : policy.limit ≤ policy.base * maxFactor := h
    rw [Nat.min_eq_right hle, Nat.min_eq_right hlimit,
      Nat.min_eq_right (hlimit.trans (Nat.mul_le_mul_left _ hle))]

/-- No sleep is cut short because it is too long for the clock, if the limit is not. -/
theorem backoff_eq_times (h : policy.limit ≤ Duration.longest) (attempt : Nat) :
    policy.backoff attempt = min (policy.base.times (min (2 ^ attempt) maxFactor)) policy.limit := by
  rw [backoff_eq_min, Duration.times, min_assoc, min_eq_right h]

/-! ## The calls -/

/-- What is done while a call is made again and again. -/
inductive Entry where
  | call
  | sleep (span : Duration)

def calls : List Entry → Nat
  | [] => 0
  | .call :: log => calls log + 1
  | .sleep _ :: log => calls log

def slept : List Entry → Duration
  | [] => 0
  | .call :: log => slept log
  | .sleep span :: log => span + slept log

theorem calls_append (log log' : List Entry) : calls (log ++ log') = calls log + calls log' := by
  induction log with
  | nil => simp [calls]
  | cons entry log ih =>
    cases entry with
    | call => simp only [List.cons_append, calls, ih, Nat.add_right_comm]
    | sleep span => exact ih

variable {ε α : Type} (isTransient : ε → Bool) (outcomes : Nat → Except ε α)

/-- Makes a call and notes it.  The outcome depends on how many calls were made before it. -/
def noteCall (_attempt : Nat) : StateM (List Entry) (Except ε α) := fun log =>
  (outcomes (calls log), log ++ [.call])

def noteSleep (span : Duration) : StateM (List Entry) Unit := fun log => ((), log ++ [.sleep span])

/-- The outcome is no reason to make the call again. -/
def Settles : Except ε α → Prop
  | .ok _ => True
  | .error fault => isTransient fault = false

/-- The number of the first outcome that settles the call, counted from 0, or infinity. -/
noncomputable def settledAt : ℕ∞ := ⨅ n, ⨅ (_ : Settles isTransient (outcomes n)), (n : ℕ∞)

/-- A call, and then for each retry a sleep and a call. -/
def schedule (policy : RetryPolicy) (attempt : Nat) : (retries : Nat) → List Entry
  | 0 => [.call]
  | retries + 1 => .call :: .sleep (policy.backoff attempt) :: schedule policy (attempt + 1) retries

theorem calls_schedule (attempt retries : Nat) : calls (policy.schedule attempt retries) = retries + 1 := by
  induction retries generalizing attempt with
  | zero => rfl
  | succ retries ih => simp [schedule, calls, ih]

theorem slept_schedule (attempt retries : Nat) : slept (policy.schedule attempt retries) =
    ∑ i ∈ Finset.range retries, policy.backoff (attempt + i) := by
  induction retries generalizing attempt with
  | zero => rfl
  | succ retries ih =>
    simp only [schedule, slept, ih, Finset.sum_range_succ', Nat.add_zero, Nat.add_right_comm attempt 1,
      Nat.add_assoc attempt]
    exact Nat.add_comm _ _

section Run

variable {isTransient : ε → Bool} {outcomes : Nat → Except ε α} {log : List Entry}

theorem runFrom_settled (h : Settles isTransient (outcomes (calls log))) (left attempt : Nat) :
    policy.runFrom noteSleep isTransient (noteCall outcomes) left attempt log =
      (outcomes (calls log), log ++ [.call]) := by
  unfold runFrom
  simp only [bind, StateT.bind, noteCall]
  cases hout : outcomes (calls log) with
  | ok a => rfl
  | error fault =>
    rw [hout] at h
    have hfault : isTransient fault = false := h
    cases left with
    | zero => rfl
    | succ left =>
      simp only [hfault]
      rfl

theorem runFrom_last (attempt : Nat) : policy.runFrom noteSleep isTransient (noteCall outcomes) 0 attempt log =
    (outcomes (calls log), log ++ [.call]) := by
  unfold runFrom
  simp only [bind, StateT.bind, noteCall]
  cases outcomes (calls log) <;> rfl

theorem runFrom_again (h : ¬ Settles isTransient (outcomes (calls log))) (left attempt : Nat) :
    policy.runFrom noteSleep isTransient (noteCall outcomes) (left + 1) attempt log =
      policy.runFrom noteSleep isTransient (noteCall outcomes) left (attempt + 1)
        (log ++ [.call, .sleep (policy.backoff attempt)]) := by
  rw [runFrom]
  simp only [bind, StateT.bind, noteCall]
  cases hout : outcomes (calls log) with
  | ok a => exact absurd (hout ▸ trivial) h
  | error fault =>
    rw [hout] at h
    have hfault : isTransient fault = true := by simpa [Settles] using h
    simp only [hfault, if_true, StateT.bind, noteSleep, List.append_assoc]
    rfl

end Run

/-- **What is done from some attempt on**: retries are made, as many as are left, until an outcome settles the call. -/
theorem runFrom_log (left attempt : Nat) (log : List Entry) : ∃ retries ≤ left,
    (∀ i < retries, ¬ Settles isTransient (outcomes (calls log + i))) ∧
    (retries = left ∨ Settles isTransient (outcomes (calls log + retries))) ∧
    policy.runFrom noteSleep isTransient (noteCall outcomes) left attempt log =
      (outcomes (calls log + retries), log ++ policy.schedule attempt retries) := by
  -- the log grows with every retry, and what it holds so far only says which outcome is next
  induction left generalizing attempt log with
  | zero =>
    exact ⟨0, Nat.le_refl _, fun i hi => absurd hi (Nat.not_lt_zero i), .inl rfl, policy.runFrom_last attempt⟩
  | succ left ih =>
    by_cases hsettles : Settles isTransient (outcomes (calls log))
    · exact ⟨0, Nat.zero_le _, fun i hi => absurd hi (Nat.not_lt_zero i), .inr hsettles,
        policy.runFrom_settled hsettles (left + 1) attempt⟩
    · obtain ⟨retries, hle, hpassed, hend, hrun⟩ := ih (attempt + 1) (log ++ [.call, .sleep (policy.backoff attempt)])
      have hcalls : calls (log ++ [.call, .sleep (policy.backoff attempt)]) = calls log + 1 := by
        rw [calls_append]
        rfl
      simp only [hcalls, Nat.add_right_comm _ 1] at hpassed hend hrun
      refine ⟨retries + 1, Nat.succ_le_succ hle, fun i hi => ?_, hend.imp (congrArg (· + 1)) id, ?_⟩
      · cases i with
        | zero => exact hsettles
        | succ i => exact hpassed i (Nat.lt_of_succ_lt_succ hi)
      · rw [policy.runFrom_again hsettles, hrun, schedule, List.append_assoc]
        rfl

/-- The first outcome that settles the call, or the last retry, whichever comes first. -/
theorem eq_min_settledAt {retries left : Nat} (hle : retries ≤ left)
    (hpassed : ∀ i < retries, ¬ Settles isTransient (outcomes i))
    (hend : retries = left ∨ Settles isTransient (outcomes retries)) :
    (retries : ℕ∞) = min (settledAt isTransient outcomes) left := by
  have hfirst : (retries : ℕ∞) ≤ settledAt isTransient outcomes := by
    refine le_iInf₂ fun n hn => Nat.cast_le.2 ?_
    exact Nat.not_lt.1 fun hlt => hpassed n hlt hn
  refine le_antisymm (le_min hfirst (Nat.cast_le.2 hle)) ?_
  rcases hend with rfl | hsettles
  · exact min_le_right _ _
  · exact (min_le_left _ _).trans (iInf₂_le retries hsettles)

/-- **The schedule of a call that is made again.**  With the number of the first outcome that settles the call, it is made
once more than that, and at most once more than there are retries; the outcome of the last call is returned; and the sleeps
between the calls are those before the retries that were made.  They never get shorter and never exceed the limit, and are
the first one doubled each time up to the limit, as long as 32 bits hold the factor, and always if the largest factor
reaches the limit. -/
theorem run_schedule : ∃ result log,
    policy.run noteSleep isTransient (noteCall outcomes) [] = (result, log) ∧
    (calls log : ℕ∞) = min (settledAt isTransient outcomes + 1) (policy.maxRetries + 1) ∧
    result = outcomes (calls log - 1) ∧
    slept log = ∑ i ∈ Finset.range (calls log - 1), policy.backoff i ∧
    log = policy.schedule 0 (calls log - 1) ∧
    Monotone policy.backoff ∧ (∀ attempt, policy.backoff attempt ≤ policy.limit) ∧
    (∀ attempt ≤ 31, policy.backoff attempt = min (policy.base * 2 ^ attempt) policy.limit) ∧
    (policy.limit ≤ policy.base * (2 ^ 32 - 1) →
      ∀ attempt, policy.backoff attempt = min (policy.base * 2 ^ attempt) policy.limit) ∧
    (policy.limit ≤ Duration.longest →
      ∀ attempt, policy.backoff attempt = min (policy.base.times (min (2 ^ attempt) maxFactor)) policy.limit) := by
  obtain ⟨retries, hle, hpassed, hend, hrun⟩ := policy.runFrom_log isTransient outcomes policy.maxRetries 0 []
  simp only [calls, Nat.zero_add, List.nil_append] at hpassed hend hrun
  have hcalls := policy.calls_schedule 0 retries
  refine ⟨_, _, hrun, ?_, ?_, ?_, ?_, policy.backoff_mono, policy.backoff_le_limit, fun _ => policy.backoff_of_le,
    policy.backoff_of_limit_le, policy.backoff_eq_times⟩
  · rw [hcalls, min_add_add_right, ← eq_min_settledAt isTransient outcomes hle hpassed hend]
    rfl
  · rw [hcalls]
    rfl
  · rw [hcalls, slept_schedule]
    simp only [Nat.zero_add, Nat.add_sub_cancel]
  · rw [hcalls]
    rfl

/-- Two failures that pass, and then a success. -/
def thirdTime (n : Nat) : Except Bool Nat := if n < 2 then .error true else .ok n

theorem run_schedule_default :
    let policy : RetryPolicy := {}
    (policy.limit ≤ policy.base * (2 ^ 32 - 1) ∧ policy.backoff 40 = min (policy.base * 2 ^ 40) policy.limit) ∧
    (policy.limit ≤ Duration.longest ∧
      policy.backoff 40 = min (policy.base.times (min (2 ^ 40) maxFactor)) policy.limit) ∧
    slept (policy.run noteSleep id (noteCall thirdTime) []).2 = ∑ i ∈ Finset.range 2, policy.backoff i := by
  intro policy
  have hfactor : policy.limit ≤ policy.base * (2 ^ 32 - 1) := by decide
  have hclock : policy.limit ≤ Duration.longest := by decide
  obtain ⟨result, log, hrun, -, -, hslept, -, -, -, -, hdoubled, htimes⟩ := policy.run_schedule id thirdTime
  have hcalls : calls (policy.run noteSleep id (noteCall thirdTime) []).2 = 3 := by decide +kernel
  rw [hrun] at hcalls
  rw [hcalls] at hslept
  exact ⟨⟨hfactor, hdoubled hfactor 40⟩, ⟨hclock, htimes hclock 40⟩, by rw [hrun]; exact hslept⟩

end RetryPolicy
end Intake
