import HttpSuite.Duration
import HttpSuite.Pattern.Failure

/-!
# Asking again

Something is tried until it succeeds or the time is up. Between two attempts there is
a pause, which is cut short where it would last beyond the deadline, so that the last
attempt begins at the deadline at the latest. The time that an attempt takes counts. Attempts are
counted in a word of 32 bits, which starts again from zero behind its last value.

The recursion is on the time that is left: it shrinks with every pause, because a
pause of no length is taken for the smallest step of the clock.
-/

namespace HttpSuite.Attempts

/-- The smallest step of the clock, in nanoseconds. -/
def clockStep : Nat := 1000000

/-- How long to wait while some time is left. -/
def pause (interval : Duration) (left : Nat) : Nat :=
  min (if interval.nanos = 0 then clockStep else interval.nanos) left

theorem pause_pos (interval : Duration) {left : Nat} (h : 0 < left) : 0 < pause interval left := by
  unfold pause clockStep
  split <;> omega

/-- What is said when the time is up. -/
def timedOut (timeout : Duration) (count : Nat) : MatchFailure :=
  .leaf s!"timed out after {timeout.compact} ({count} attempts)"

variable {σ α : Type}

/-- Attempts number `count` and later, when some time has elapsed. An attempt tells how
long it took. -/
def runFrom (attempt : σ → (Except (List MatchFailure) α × Nat) × σ) (wait : Nat → σ → σ)
    (timeout interval : Duration) (elapsed : Nat) (count : UInt32) (s : σ) :
    Except (List MatchFailure) α × σ :=
  match attempt s with
  | ((.ok a, _), s) => (.ok a, s)
  | ((.error failures, taken), s) =>
    if h : timeout.nanos ≤ elapsed + taken then
      (.error (failures ++ [timedOut timeout count.toNat]), s)
    else
      let waiting := pause interval (timeout.nanos - (elapsed + taken))
      have : 0 < waiting := pause_pos interval (by omega)
      runFrom attempt wait timeout interval (elapsed + taken + waiting) (count + 1)
        (wait waiting s)
termination_by timeout.nanos - elapsed

/-- All attempts: what the first successful one results in, or what was wrong with the
last one and that the time is up. -/
def run (attempt : σ → (Except (List MatchFailure) α × Nat) × σ) (wait : Nat → σ → σ)
    (timeout interval : Duration) (s : σ) : Except (List MatchFailure) α × σ :=
  runFrom attempt wait timeout interval 0 1 s

end HttpSuite.Attempts
