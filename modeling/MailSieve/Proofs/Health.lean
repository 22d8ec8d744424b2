import Mathlib
import MailSieve.CommandLine.Invocation
import MailSieve.Health

/-!
What the status endpoint answers, in exact integers. The window of two intervals is a product of 64 bits:
for the upper half of the intervals it does not fit, and then no request is answered at all.
-/

namespace MailSieve.Health

/-- The requests that are served. -/
def Served (method url : String) : Prop := method = "GET" ∧ url = "/status"

/-- The last run went well, and less than two intervals ago. -/
def Fresh (now lastSuccess lastFailure interval : UInt64) : Prop :=
  lastFailure.toNat < lastSuccess.toNat ∧ now.toNat < lastSuccess.toNat + 2 * interval.toNat

/-- Two intervals fit into 64 bits. -/
def Fits (interval : UInt64) : Prop := interval.toNat < 2 ^ 63

/-- The code that a request is answered with at some time, unless the thread that answers is broken off. -/
def answer (method url : String) (now lastSuccess lastFailure interval : UInt64) : Option Nat :=
  (isHealthy now lastSuccess lastFailure interval).map (statusCode method url)

variable {now lastSuccess lastFailure interval length : UInt64} {method url : String}

theorem window_eq_some :
    window interval = some length ↔ Fits interval ∧ length.toNat = 2 * interval.toNat := by
  have hsize : UInt64.size = 2 ^ 64 := rfl
  have hmul : (2 * interval).toNat = 2 * interval.toNat % 2 ^ 64 := UInt64.toNat_mul 2 interval
  rw [window, Fits, Option.ite_none_right_eq_some, Option.some.injEq, ← UInt64.toNat_inj]
  omega

theorem window_eq_none : window interval = none ↔ ¬ Fits interval := by
  have hsize : UInt64.size = 2 ^ 64 := rfl
  rw [window, Fits, ite_eq_right_iff, imp_iff_not (Option.some_ne_none _)]
  omega

theorem toNat_since (now length : UInt64) : (since now length).toNat = now.toNat - length.toNat := by
  unfold since
  split
  · next h => exact UInt64.toNat_sub_of_le _ _ h
  · next h =>
    rw [UInt64.le_iff_toNat_le] at h
    rw [Nat.sub_eq_zero_of_le (by omega)]
    rfl

/-- That no time is before zero makes no difference, as a success after some failure is later than zero. -/
theorem isHealthy_of_fits (now lastSuccess lastFailure : UInt64) (h : Fits interval) :
    ∃ healthy : Bool, isHealthy now lastSuccess lastFailure interval = some healthy ∧
      (healthy = true ↔ Fresh now lastSuccess lastFailure interval) := by
  cases hwindow : window interval with
  | none => exact absurd h (window_eq_none.1 hwindow)
  | some length =>
    obtain ⟨-, hlength⟩ := window_eq_some.1 hwindow
    refine ⟨_, by rw [isHealthy, hwindow, Option.map_some], ?_⟩
    simp only [Fresh, Bool.and_eq_true, decide_eq_true_iff, gt_iff_lt, UInt64.lt_iff_toNat_lt,
      toNat_since, hlength]
    omega

theorem answer_eq_none_iff :
    answer method url now lastSuccess lastFailure interval = none ↔ ¬ Fits interval := by
  rw [answer, isHealthy, Option.map_eq_none_iff, Option.map_eq_none_iff, window_eq_none]

theorem statusCode_of_served (h : Served method url) (healthy : Bool) :
    statusCode method url healthy = if healthy then 200 else 500 :=
  if_pos h

theorem statusCode_of_not_served (h : ¬ Served method url) (healthy : Bool) :
    statusCode method url healthy = 404 :=
  if_neg h

/-- As long as two intervals fit into 64 bits, a served request is told in exact integers whether the last
run went well and less than two intervals ago, and no other request is told anything. Where they do not fit,
nothing is answered. -/
theorem answer_iff (method url : String) (now lastSuccess lastFailure interval : UInt64) :
    (answer method url now lastSuccess lastFailure interval = some 200 ↔
      Fits interval ∧ Served method url ∧ Fresh now lastSuccess lastFailure interval) ∧
    (answer method url now lastSuccess lastFailure interval = some 500 ↔
      Fits interval ∧ Served method url ∧ ¬ Fresh now lastSuccess lastFailure interval) ∧
    (answer method url now lastSuccess lastFailure interval = some 404 ↔
      Fits interval ∧ ¬ Served method url) ∧
    (answer method url now lastSuccess lastFailure interval = none ↔ ¬ Fits interval) := by
  refine and_assoc.1 (and_assoc.1 ⟨?_, answer_eq_none_iff⟩)
  by_cases hfits : Fits interval
  · obtain ⟨healthy, hhealthy, hfresh⟩ := isHealthy_of_fits now lastSuccess lastFailure hfits
    rw [answer, hhealthy, Option.map_some, ← hfresh]
    by_cases hserved : Served method url
    · rw [statusCode_of_served hserved]
      cases healthy <;> simp [hserved, hfits]
    · simp [statusCode_of_not_served hserved, hserved, hfits]
  · simp [answer_eq_none_iff.2 hfits, hfits]

open CommandLine in
/-- An interval of half the range is accepted, and then not even a success of a millisecond ago is
answered. -/
theorem recent_success_unanswered : ∃ s now lastSuccess,
    (readLine [] .empty ["daemon", "--source", "a", "--dest", "b", "--interval",
      "9223372036854775808"]).toOption = some ⟨false, .daemon s⟩ ∧ Served "GET" "/status" ∧
    Fresh now lastSuccess 0 s.interval ∧ answer "GET" "/status" now lastSuccess 0 s.interval = none := by
  refine ⟨⟨⟨"a", "b", "sievefwd.json", none⟩, 9223372036854775808, 60000, "0.0.0.0:3000"⟩,
    1760000000000, 1759999999999, by decide +kernel, ⟨rfl, rfl⟩, ⟨by decide, by decide⟩, by decide⟩

end MailSieve.Health
