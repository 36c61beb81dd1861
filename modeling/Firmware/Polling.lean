/-
  Firmware: bounded polling. Every wait of the core evaluates a condition at most `budget`
  times; a hook is called after each evaluation that failed and is the only point where a host
  can do something else.
-/
import Firmware.Error

namespace Firmware

/-- Evaluates `condition`, the next evaluation being number `attempt`, at most `remaining` times. -/
def pollFrom {σ : Type} (condition : σ → Bool × σ) (relax : σ → σ) :
    (remaining attempt : Nat) → σ → Except Error Nat × σ
  | 0, _, s => (.error .timeout, s)
  | remaining + 1, attempt, s =>
    match condition s with
    | (true, s) => (.ok attempt, s)
    | (false, s) => pollFrom condition relax remaining (attempt + 1) (relax s)

/-- Evaluates `condition` until it holds, at most `budget` times, and answers how many
evaluations that took. A zero budget runs out without an evaluation. -/
def pollUntil {σ : Type} (budget : Nat) (condition : σ → Bool × σ) (relax : σ → σ) (s : σ) :
    Except Error Nat × σ :=
  pollFrom condition relax budget 1 s

end Firmware
