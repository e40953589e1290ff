import Scaffold.Attempt

/-!
# Results of attempts

An attempt in steps has a result exactly if every step has one.
-/

namespace Scaffold

namespace Attempt

variable {Fault Result Next : Type}

@[simp] theorem result_succeed (result : Result) :
    (succeed result : Attempt Fault Result).result = .ok result := rfl

@[simp] theorem result_fail (fault : Fault) :
    (fail fault : Attempt Fault Result).result = .error fault := rfl

theorem result_andThen_eq_ok_iff
    {attempt : Attempt Fault Result} {next : Result → Attempt Fault Next} {value : Next} :
    (attempt.andThen next).result = .ok value ↔
      ∃ middle, attempt.result = .ok middle ∧ (next middle).result = .ok value := by
  unfold andThen
  cases reached : attempt.result with
  | error fault => simp
  | ok middle => simp

end Attempt

end Scaffold
