import Mathlib.Algebra.Order.Floor.Div
import HttpSuite.Proofs.RoundTrip.Run

/-!
# When attempts are made

Asking again is a loop that ends with an attempt, and which one that is hangs on how long the
attempts take and how they end. Here the loop is laid out on its clock instead: `moment` says
when every attempt begins if those before it are in vain, without asking whether it is made at
all. The loop then makes the attempts of these moments in order up to the first that succeeds
or ends behind the deadline (`run_eq_of_goesOn`, `run_eq_of_last`), and there is such a one,
because what an attempt that is not the last leaves of the time gets less (`exists_last`).

Everything else is said about moments. None of them is behind the deadline, since a pause is cut
short there; and if attempts take no time, then attempt `k` is made at `k` intervals or at the
deadline, which makes `⌈timeout / interval⌉ + 1` attempts and the last one at the deadline.

For a sender the clock is that of the journal.

Attempts are counted in a word of 32 bits. The number is only told, and nothing else hangs on it,
so the moments have their own: what is told behind `last + 1` attempts is that number as far as
32 bits go. More attempts than that are made where pauses are short enough (`attempts_wrapped`).
-/

namespace HttpSuite

/-- An attempt that is made again and again, and how. -/
structure Asking (σ α : Type) where
  /-- One attempt, which takes some time. -/
  attempt : σ → (Except (List MatchFailure) α × Nat) × σ
  /-- A pause. -/
  wait : Nat → σ → σ
  /-- How long to go on. -/
  timeout : Duration
  /-- How long the pauses are. -/
  interval : Duration

/-- A moment at which an attempt begins. -/
structure Moment (σ : Type) where
  /-- The nanoseconds since the first attempt began. -/
  elapsed : Nat
  /-- What there is then. -/
  state : σ

namespace Asking

variable {σ α : Type} (asking : Asking σ α)

/-- All attempts, and what they come to. -/
def run (s : σ) : Except (List MatchFailure) α × σ :=
  Attempts.run asking.attempt asking.wait asking.timeout asking.interval s

/-- What the attempt that begins at a moment comes to. -/
def result (m : Moment σ) : Except (List MatchFailure) α := (asking.attempt m.state).1.1

/-- What there is behind it. -/
def after (m : Moment σ) : σ := (asking.attempt m.state).2

/-- When it ends. -/
def ends (m : Moment σ) : Nat := m.elapsed + (asking.attempt m.state).1.2

/-- The moment of the next attempt: an interval behind the end of this one, or at the deadline
if that is earlier. -/
def next (m : Moment σ) : Moment σ :=
  let waiting := min asking.interval.nanos (asking.timeout.nanos - asking.ends m)
  ⟨asking.ends m + waiting, asking.wait waiting (asking.after m)⟩

/-- The moment of an attempt with so many others before it, all of them in vain. -/
def moment (s : σ) (k : Nat) : Moment σ := asking.next^[k] ⟨0, s⟩

/-- The attempt that begins at a moment does not succeed. -/
def InVain (m : Moment σ) : Prop := ∃ failures, asking.result m = .error failures

/-- There is a reason for another attempt, and time for it. -/
def GoesOn (m : Moment σ) : Prop := asking.InVain m ∧ asking.ends m < asking.timeout.nanos

@[simp] theorem moment_zero (s : σ) : asking.moment s 0 = ⟨0, s⟩ := rfl

theorem moment_succ (s : σ) (k : Nat) :
    asking.moment s (k + 1) = asking.next (asking.moment s k) :=
  Function.iterate_succ_apply' asking.next k ⟨0, s⟩

/-- A pause never lasts beyond the deadline. -/
theorem elapsed_next_le {m : Moment σ} (h : asking.ends m < asking.timeout.nanos) :
    (asking.next m).elapsed ≤ asking.timeout.nanos := by
  show asking.ends m + min asking.interval.nanos (asking.timeout.nanos - asking.ends m) ≤ _
  omega

variable {asking}

/-- Time passes from one attempt to the next. -/
theorem elapsed_lt_next (hinterval : 0 < asking.interval.nanos) {m : Moment σ}
    (h : asking.ends m < asking.timeout.nanos) : m.elapsed < (asking.next m).elapsed := by
  have hends : m.elapsed ≤ asking.ends m := Nat.le_add_right ..
  show m.elapsed < asking.ends m + min asking.interval.nanos (asking.timeout.nanos - asking.ends m)
  omega

/-! ## The loop makes the attempts of these moments -/

/-- The loop from an attempt on. -/
def runFrom (asking : Asking σ α) (m : Moment σ) (made : Nat) : Except (List MatchFailure) α × σ :=
  Attempts.runFrom asking.attempt asking.wait asking.timeout asking.interval m.elapsed
    (.ofNat (made + 1)) m.state

theorem runFrom_of_goesOn (hinterval : 0 < asking.interval.nanos) {m : Moment σ}
    (h : asking.GoesOn m) (made : Nat) :
    asking.runFrom m made = asking.runFrom (asking.next m) (made + 1) := by
  obtain ⟨⟨failures, hfailures⟩, hearly⟩ := h
  have hpause : Attempts.pause asking.interval (asking.timeout.nanos - asking.ends m)
      = min asking.interval.nanos (asking.timeout.nanos - asking.ends m) := by
    rw [Attempts.pause, if_neg (by omega)]
  unfold runFrom next after
  rw [← hpause, UInt32.ofNat_add (made + 1) 1, Attempts.runFrom.eq_def _ _ _ _ _ _ m.state]
  unfold result at hfailures
  unfold ends at hearly ⊢
  rcases hrun : asking.attempt m.state with ⟨⟨r, taken⟩, s⟩
  rw [hrun] at hfailures hearly
  cases hfailures
  dsimp only at hearly ⊢
  rw [dif_neg (by omega)]
  rfl

/-- The loop ends with the attempt at a moment if it does not go on behind it. -/
theorem runFrom_of_last {m : Moment σ} (h : ¬ asking.GoesOn m) (made : Nat) :
    asking.runFrom m made
      = ((asking.result m).mapError
          (· ++ [Attempts.timedOut asking.timeout ((made + 1) % 2 ^ 32)]), asking.after m) := by
  unfold GoesOn InVain at h
  unfold runFrom result after
  unfold result ends at h
  rw [Attempts.runFrom]
  rcases hrun : asking.attempt m.state with ⟨⟨r, taken⟩, s⟩
  rw [hrun] at h
  cases r with
  | ok a => rfl
  | error failures =>
      have hlate : asking.timeout.nanos ≤ m.elapsed + taken := by
        refine Nat.not_lt.mp fun hearly => h ⟨⟨failures, rfl⟩, hearly⟩
      dsimp only
      rw [dif_pos hlate]
      rfl

theorem run_eq_of_goesOn (hinterval : 0 < asking.interval.nanos) {s : σ} {k : Nat}
    (h : ∀ j < k, asking.GoesOn (asking.moment s j)) :
    asking.run s = asking.runFrom (asking.moment s k) k := by
  induction k with
  | zero => rfl
  | succ k ih =>
      rw [ih fun j hj => h j (by omega), runFrom_of_goesOn hinterval (h k (by omega)), moment_succ]

/-- Some attempt is the last one: at every moment before it at least one nanosecond more has
elapsed than at the one before, and the deadline is not passed. -/
theorem exists_last (hinterval : 0 < asking.interval.nanos) (s : σ) :
    ∃ k, ¬ asking.GoesOn (asking.moment s k) := by
  by_contra hall
  push Not at hall
  have hlate : ∀ k, k ≤ (asking.moment s k).elapsed := by
    intro k
    induction k with
    | zero => exact Nat.zero_le _
    | succ k ih =>
        rw [moment_succ]
        exact ih.trans_lt (elapsed_lt_next hinterval (hall k).2)
  have hearly := (hall asking.timeout.nanos).2
  have := hlate asking.timeout.nanos
  unfold ends at hearly
  omega

/-! ## Attempts that take no time -/

/-- Where attempts take no time, attempt `k` is made `k` intervals behind the first, or at the
deadline. -/
theorem elapsed_of_instant {s : σ} {k : Nat}
    (h : ∀ j < k, asking.ends (asking.moment s j) = (asking.moment s j).elapsed) :
    (asking.moment s k).elapsed = min (asking.interval.nanos * k) asking.timeout.nanos := by
  induction k with
  | zero => simp
  | succ k ih =>
      rw [moment_succ]
      unfold next
      dsimp only
      rw [h k (by omega), ih fun j hj => h j (by omega), Nat.mul_succ]
      omega

variable (asking)

/-- How often it is asked and when: `last + 1` times. -/
structure Polls (s : σ) (last : Nat) : Prop where
  /-- Every attempt but the last is in vain and ends before the deadline. -/
  goesOn : ∀ k < last, asking.InVain (asking.moment s k)
    ∧ asking.ends (asking.moment s k) < asking.timeout.nanos
  /-- No attempt begins behind the deadline. -/
  inTime : ∀ k ≤ last, (asking.moment s k).elapsed ≤ asking.timeout.nanos
  /-- If the last attempt succeeds, then all of them come to what it does. -/
  matched : ∀ a, asking.result (asking.moment s last) = .ok a →
    asking.run s = (.ok a, asking.after (asking.moment s last))
  /-- If it does not, then it ends at the deadline or behind it, and what was wrong with it is
  told and then that the time is up, and how many attempts there were, as far as a word of 32
  bits can tell. -/
  timedOut : ∀ failures, asking.result (asking.moment s last) = .error failures →
    asking.timeout.nanos ≤ asking.ends (asking.moment s last)
    ∧ asking.run s
      = (.error (failures ++ [Attempts.timedOut asking.timeout ((last + 1) % 2 ^ 32)]),
        asking.after (asking.moment s last))
  /-- If attempts take no time and are all in vain, then there are as many as intervals begin
  before the deadline and one more, which is made at the deadline. -/
  instant : (∀ k ≤ last, asking.InVain (asking.moment s k)
      ∧ asking.ends (asking.moment s k) = (asking.moment s k).elapsed) →
    last + 1 = asking.timeout.nanos ⌈/⌉ asking.interval.nanos + 1
    ∧ (asking.moment s last).elapsed = asking.timeout.nanos

variable {asking}

theorem Polls.snd_run {s : σ} {last : Nat} (h : asking.Polls s last) :
    (asking.run s).2 = asking.after (asking.moment s last) := by
  cases hresult : asking.result (asking.moment s last) with
  | ok a => rw [h.matched a hresult]
  | error failures => rw [(h.timedOut failures hresult).2]

theorem Polls.of_last (hinterval : 0 < asking.interval.nanos) {s : σ} {last : Nat}
    (hbefore : ∀ k < last, asking.GoesOn (asking.moment s k))
    (hlast : ¬ asking.GoesOn (asking.moment s last)) : asking.Polls s last := by
  have hrun : asking.run s
      = ((asking.result (asking.moment s last)).mapError
          (· ++ [Attempts.timedOut asking.timeout ((last + 1) % 2 ^ 32)]),
        asking.after (asking.moment s last)) := by
    rw [run_eq_of_goesOn hinterval hbefore, runFrom_of_last hlast]
  have hlate : asking.InVain (asking.moment s last) →
      asking.timeout.nanos ≤ asking.ends (asking.moment s last) :=
    fun hvain => Nat.not_lt.mp fun hearly => hlast ⟨hvain, hearly⟩
  refine ⟨hbefore, ?_, ?_, ?_, ?_⟩
  · intro k hk
    cases k with
    | zero => exact Nat.zero_le _
    | succ k =>
        rw [moment_succ]
        exact asking.elapsed_next_le (hbefore k (by omega)).2
  · intro a ha
    rw [hrun, ha]
    rfl
  · intro failures hfailures
    refine ⟨hlate ⟨failures, hfailures⟩, ?_⟩
    rw [hrun, hfailures]
    rfl
  · intro hinstant
    have helapsed := fun k (hk : k ≤ last) =>
      elapsed_of_instant (k := k) fun j hj => (hinstant j (by omega)).2
    have hdeadline : asking.timeout.nanos ≤ asking.interval.nanos * last := by
      have := hlate (hinstant last le_rfl).1
      rw [(hinstant last le_rfl).2, helapsed last le_rfl] at this
      omega
    have hceil : last = asking.timeout.nanos ⌈/⌉ asking.interval.nanos := by
      refine le_antisymm ?_ ((ceilDiv_le_iff_le_mul hinterval).mpr hdeadline)
      -- An attempt before the last was made before the deadline.
      by_contra hless
      push Not at hless
      have hsmall := (ceilDiv_le_iff_le_mul hinterval).mp
        (le_refl (asking.timeout.nanos ⌈/⌉ asking.interval.nanos))
      have hearly := (hbefore _ hless).2
      rw [(hinstant _ hless.le).2, helapsed _ hless.le] at hearly
      omega
    exact ⟨by rw [← hceil], by rw [helapsed last le_rfl]; omega⟩

theorem exists_polls (hinterval : 0 < asking.interval.nanos) (s : σ) :
    ∃ last, asking.Polls s last := by
  classical
  have hlast := exists_last hinterval s
  refine ⟨Nat.find hlast, .of_last hinterval (fun k hk => ?_) (Nat.find_spec hlast)⟩
  exact not_not.mp (Nat.find_min hlast hk)

end Asking

/-- What is told shows the number of attempts. -/
theorem Attempts.digits_of_timedOut {timeout : Duration} {a b : Nat}
    (h : timedOut timeout a = timedOut timeout b) : Nat.toDigits 10 a = Nat.toDigits 10 b := by
  have htext := congrArg String.toList (Option.some.inj (MatchFailure.node.inj h).2.1)
  simpa using htext

/-! ## On the clock of the journal -/

namespace Journal

/-- The request for which a client was called. -/
def calledFor : Event → Option Request
  | .called request => some request
  | _ => none

/-- The requests for which clients were called. -/
def calls (journal : Journal) : List Request := journal.events.filterMap calledFor

theorem calls_record (journal : Journal) (event : Event) :
    (journal.record event).calls = journal.calls ++ (calledFor event).toList := by
  unfold calls record
  rw [List.filterMap_append]
  cases h : calledFor event <;> simp [h]

@[simp] theorem calls_wait (nanos : Nat) (journal : Journal) :
    (journal.wait nanos).calls = journal.calls := rfl

end Journal

theorem Client.calls_send (client : Client) (service : Service) (request : Request)
    (journal : Journal) :
    (client.send service request journal).2.calls = journal.calls ++ [request] := by
  have hcalled : (journal.record (.called request)).calls = journal.calls ++ [request] :=
    journal.calls_record _
  unfold Client.send
  split
  · exact hcalled
  · next outgoing _ =>
      split
      · exact hcalled
      · have hreceived : ((journal.record (.called request)).record (.received outgoing)).calls
            = journal.calls ++ [request] := by
          rw [Journal.calls_record, hcalled]
          exact List.append_nil _
        dsimp only
        split
        · exact hreceived
        · split <;> exact hreceived

/-- Time only passes while a request is sent. -/
theorem Client.now_le_send (client : Client) (service : Service) (request : Request)
    (journal : Journal) : journal.now ≤ (client.send service request journal).2.now := by
  unfold Client.send
  split
  · exact le_rfl
  · split
    · exact le_rfl
    · dsimp only
      split
      · exact le_rfl
      · split <;> exact Nat.le_add_right ..

namespace Sender

variable (sender : Sender) (client : Client) (request : Request) (requirement : Requirement)

theorem attempt_snd (journal : Journal) :
    (sender.attempt client request requirement journal).2
      = (client.send sender.service request journal).2 := by
  unfold attempt
  split <;> next h => rw [h]

/-- An attempt takes the time that passes in the journal. -/
theorem now_attempt (journal : Journal) :
    (sender.attempt client request requirement journal).2.now
      = journal.now + (sender.attempt client request requirement journal).1.2 := by
  have hle := client.now_le_send sender.service request journal
  unfold attempt
  split <;>
  · next h =>
      rw [h] at hle
      exact (Nat.add_sub_of_le hle).symm

/-- What is asked again and again for a round trip. -/
def asking (polling : Polling) : Asking Journal Scope where
  attempt := sender.attempt client request requirement
  wait := Journal.wait
  timeout := polling.timeout.getD sender.timeout
  interval := polling.interval.getD sender.interval

theorem exchange_of_eventually {r : RoundTrip} {polling : Polling}
    (h : r.response.eventually = some polling) (journal : Journal) :
    sender.exchange r client request requirement journal
      = ((((sender.asking client request requirement polling).run journal).1).mapError
          (mismatchOf r request),
        ((sender.asking client request requirement polling).run journal).2) := by
  unfold exchange
  rw [h]
  dsimp only
  unfold Asking.run
  rcases hrun : Attempts.run (sender.attempt client request requirement) Journal.wait
    (polling.timeout.getD sender.timeout) (polling.interval.getD sender.interval) journal
    with ⟨result, after⟩
  unfold asking
  rw [hrun]
  cases result <;> rfl

variable {sender client request requirement} {polling : Polling}

theorem after_asking (m : Moment Journal) :
    (sender.asking client request requirement polling).after m
      = (client.send sender.service request m.state).2 :=
  sender.attempt_snd client request requirement m.state

/-- A response that comes is checked, and one that does not come is an attempt in vain. -/
theorem result_asking (m : Moment Journal) :
    (sender.asking client request requirement polling).result m
      = match (client.send sender.service request m.state).1 with
        | .ok response => requirement.check response
        | .error e => .error [.leaf s!"request failed: {e.message}"] := by
  unfold Asking.result asking
  dsimp only
  unfold attempt
  rcases client.send sender.service request m.state with ⟨r, after⟩
  cases r <;> rfl

theorem calls_after (m : Moment Journal) :
    ((sender.asking client request requirement polling).after m).calls
      = m.state.calls ++ [request] := by
  rw [after_asking, Client.calls_send]

/-- No client is called in a pause. -/
theorem calls_next (m : Moment Journal) :
    ((sender.asking client request requirement polling).next m).state.calls
      = ((sender.asking client request requirement polling).after m).calls :=
  Journal.calls_wait _ _

theorem calls_moment (journal : Journal) (k : Nat) :
    ((sender.asking client request requirement polling).moment journal k).state.calls
      = journal.calls ++ List.replicate k request := by
  induction k with
  | zero => exact (List.append_nil _).symm
  | succ k ih =>
      rw [Asking.moment_succ, calls_next, calls_after, ih, List.replicate_succ',
        List.append_assoc]

/-- An attempt and a pause take as long in the journal as on the clock of the loop. -/
theorem now_next (m : Moment Journal) :
    ((sender.asking client request requirement polling).next m).state.now + m.elapsed
      = m.state.now + ((sender.asking client request requirement polling).next m).elapsed := by
  have hattempt := sender.now_attempt client request requirement m.state
  unfold Asking.next Asking.after Asking.ends asking Journal.wait
  dsimp only
  omega

/-- The journal has the time of every moment. -/
theorem now_moment (journal : Journal) (k : Nat) :
    ((sender.asking client request requirement polling).moment journal k).state.now
      = journal.now
        + ((sender.asking client request requirement polling).moment journal k).elapsed := by
  induction k with
  | zero => rfl
  | succ k ih =>
      rw [Asking.moment_succ]
      generalize (sender.asking client request requirement polling).moment journal k = m at ih ⊢
      have hnext : ((sender.asking client request requirement polling).next m).state.now
        + m.elapsed = _ := now_next m
      omega

/-- How a request is sent again and again for a round trip, `last + 1` times in all. -/
structure AsksAgain (sender : Sender) (r : RoundTrip) (client : Client) (request : Request)
    (requirement : Requirement) (journal : Journal) (asking : Asking Journal Scope) (last : Nat) :
    Prop where
  /-- It is sent at the moments of the loop. -/
  polls : asking.Polls journal last
  /-- The time of a moment is that of the journal. -/
  clock : ∀ k, (asking.moment journal k).state.now
    = journal.now + (asking.moment journal k).elapsed
  /-- Every attempt is one request, whose response is checked. -/
  attempts : ∀ k response, (client.send sender.service request (asking.moment journal k).state).1
    = .ok response → asking.result (asking.moment journal k) = requirement.check response
  /-- Where none comes the attempt is in vain, and that is all there is to it. -/
  failures : ∀ k e, (client.send sender.service request (asking.moment journal k).state).1
    = .error e → asking.result (asking.moment journal k)
      = .error [.leaf s!"request failed: {e.message}"]
  /-- Clients are called for these requests, and no more often. -/
  calls : (asking.run journal).2.calls = journal.calls ++ List.replicate (last + 1) request
  /-- The round trip defines what the loop comes to; what was wrong is a mismatch. -/
  exchanged : sender.exchange r client request requirement journal
    = ((asking.run journal).1.mapError (mismatchOf r request), (asking.run journal).2)

theorem exists_asksAgain {r : RoundTrip} (h : r.response.eventually = some polling)
    (hinterval : 0 < (polling.interval.getD sender.interval).nanos) (journal : Journal) :
    ∃ last, sender.AsksAgain r client request requirement journal
      (sender.asking client request requirement polling) last := by
  obtain ⟨last, hpolls⟩ :
      ∃ last, (sender.asking client request requirement polling).Polls journal last :=
    Asking.exists_polls hinterval journal
  refine ⟨last, hpolls, now_moment journal, fun k response hsend => ?_, fun k e hsend => ?_, ?_,
    exchange_of_eventually sender client request requirement h journal⟩
  · rw [result_asking, hsend]
  · rw [result_asking, hsend]
  · rw [List.replicate_succ', ← List.append_assoc, ← calls_moment, ← calls_after, hpolls.snd_run]

/-- A loop of attempts goes on until one succeeds or the time is up, whatever the attempts come
to and however long they take, and makes an attempt at the deadline if it gets that far. A
sender asks again in such a loop: on the clock of its journal, with one request for each
attempt, and with a request that has no response counting as an attempt in vain. -/
theorem asks_until_due :
    (∀ {σ α : Type} (asking : Asking σ α) (s : σ), 0 < asking.interval.nanos →
        ∃ last, asking.Polls s last)
      ∧ ∀ (sender : Sender) (r : RoundTrip) (client : Client) (request : Request)
          (requirement : Requirement) (journal : Journal) (polling : Polling),
          r.response.eventually = some polling →
          0 < (polling.interval.getD sender.interval).nanos →
          ∃ last, sender.AsksAgain r client request requirement journal
            (sender.asking client request requirement polling) last :=
  ⟨fun _ s hinterval => Asking.exists_polls hinterval s,
    fun _ _ _ _ _ journal _ h hinterval => exists_asksAgain h hinterval journal⟩

/-- The sender without extensions, for a service. -/
def plain (service : Service) : Sender where
  service := service
  clients := { usual := {} }
  functions := .builtins ⟨0, 0⟩
  timeout := .zero
  interval := .zero

/-- A sender of which no request arrives. -/
def refused : Sender := .plain .unreachable

theorem attempt_refused (client : Client) (request : Request) (requirement : Requirement)
    (journal : Journal) :
    ∃ failures, (refused.attempt client request requirement journal).1 = (.error failures, 0) := by
  have hsend : ∃ e, client.send refused.service request journal
      = (.error e, journal.record (.called request)) := by
    unfold Client.send
    cases client.prepare request with
    | error e => exact ⟨e, rfl⟩
    | ok outgoing => exact ⟨.network "no connection", rfl⟩
  obtain ⟨e, he⟩ := hsend
  refine ⟨[.leaf s!"request failed: {e.message}"], ?_⟩
  unfold attempt
  rw [he]
  exact congrArg (Prod.mk _) (Nat.sub_self journal.now)

/-- Its attempts are all in vain and take no time. -/
theorem instant_refused (client : Client) (request : Request) (requirement : Requirement)
    (polling : Polling) (m : Moment Journal) :
    (refused.asking client request requirement polling).InVain m
      ∧ (refused.asking client request requirement polling).ends m = m.elapsed := by
  obtain ⟨failures, hattempt⟩ := attempt_refused client request requirement m.state
  exact ⟨⟨failures, congrArg Prod.fst hattempt⟩, congrArg (m.elapsed + ·.2) hattempt⟩

/-- For a second, with pauses of 300 milliseconds. -/
def patience : Polling := ⟨some (.ofMillis 1000), some (.ofMillis 300)⟩

/-- A round trip that is asked with patience. -/
def patient : RoundTrip := { response := { eventually := some patience } }

/-- Nothing is expected of a response. -/
def undemanding : Requirement := ⟨none, .empty, .unchecked, []⟩

/-- Where nothing arrives, five requests are sent in that second, the last one at its end. -/
theorem asks_until_due_refused :
    patient.response.eventually = some patience
      ∧ 0 < (patience.interval.getD refused.interval).nanos
      ∧ ∃ last, refused.AsksAgain patient {} default undemanding {}
          (refused.asking {} default undemanding patience) last
        ∧ last = 4
        ∧ ((refused.asking {} default undemanding patience).moment {} last).elapsed
          = 1000000000 := by
  have hinterval : 0 < (patience.interval.getD refused.interval).nanos := by decide
  obtain ⟨last, hasks⟩ := asks_until_due.2 refused patient {} default undemanding {} patience rfl
    hinterval
  obtain ⟨hcount, hdeadline⟩ := hasks.polls.instant fun _ _ => instant_refused _ _ _ _ _
  have hceil : (refused.asking {} default undemanding patience).timeout.nanos
      ⌈/⌉ (refused.asking {} default undemanding patience).interval.nanos = 4 := by
    rw [Nat.ceilDiv_eq_add_pred_div]
    decide
  exact ⟨rfl, hinterval, last, hasks, by omega, hdeadline⟩

/-- What is asked again where nothing arrives is asked as often as pauses begin before the
deadline and once more, and the number that is told is that one as far as 32 bits go. -/
theorem exchange_refused {r : RoundTrip} {polling : Polling}
    (h : r.response.eventually = some polling)
    (hinterval : 0 < (polling.interval.getD refused.interval).nanos) (client : Client)
    (request : Request) (requirement : Requirement) (journal : Journal) :
    ∃ count failures, count = (polling.timeout.getD refused.timeout).nanos
          ⌈/⌉ (polling.interval.getD refused.interval).nanos + 1
      ∧ (refused.exchange r client request requirement journal).2.calls
        = journal.calls ++ List.replicate count request
      ∧ (refused.exchange r client request requirement journal).1
        = .error (mismatchOf r request (failures
          ++ [Attempts.timedOut (polling.timeout.getD refused.timeout) (count % 2 ^ 32)])) := by
  obtain ⟨last, hasks⟩ :
      ∃ last, refused.AsksAgain r client request requirement journal
        (refused.asking client request requirement polling) last :=
    exists_asksAgain h hinterval journal
  obtain ⟨failures, hfailures⟩ :=
    (instant_refused client request requirement polling
      ((refused.asking client request requirement polling).moment journal last)).1
  refine ⟨last + 1, failures, (hasks.polls.instant fun _ _ => instant_refused _ _ _ _ _).1, ?_, ?_⟩
  · rw [hasks.exchanged, hasks.calls]
  · rw [hasks.exchanged, (hasks.polls.timedOut failures hfailures).2]
    rfl

/-- For five seconds, with pauses of a nanosecond. -/
def haste : Polling := ⟨some (.ofMillis 5000), some ⟨1⟩⟩

/-- A round trip that is asked in haste. -/
def hasty : RoundTrip := { response := { eventually := some haste } }

/-- Where nothing arrives, more requests are sent in that time than a word of 32 bits can count.
The number that is told begins again from zero. -/
theorem attempts_wrapped :
    (refused.exchange hasty {} default undemanding {}).2.calls.length = 5000000001
      ∧ (∃ failures, (refused.exchange hasty {} default undemanding {}).1
        = .error (mismatchOf hasty default
          (failures ++ [Attempts.timedOut (.ofMillis 5000) 705032705])))
      ∧ ∀ failures, (refused.exchange hasty {} default undemanding {}).1
        ≠ .error (mismatchOf hasty default
          (failures ++ [Attempts.timedOut (.ofMillis 5000) 5000000001])) := by
  obtain ⟨count, failures, hcount, hcalls, htold⟩ :=
    exchange_refused (r := hasty) rfl (by decide) {} default undemanding {}
  have hceil : (haste.timeout.getD refused.timeout).nanos
      ⌈/⌉ (haste.interval.getD refused.interval).nanos = 5000000000 := by
    rw [Nat.ceilDiv_eq_add_pred_div]
    decide +kernel
  have hmany : count = 5000000001 := by omega
  have hrest : count % 2 ^ 32 = 705032705 := by omega
  rw [hrest] at htold
  refine ⟨?_, ⟨failures, htold⟩, fun others hothers => ?_⟩
  · rw [hcalls, List.length_append, List.length_replicate, ← hmany]
    exact Nat.zero_add count
  · have hfails : failures ++ [Attempts.timedOut (.ofMillis 5000) 705032705]
        = others ++ [Attempts.timedOut (.ofMillis 5000) 5000000001] :=
      (Mismatch.mk.inj (RoundTripError.mismatch.inj
        (Except.error.inj (htold.symm.trans hothers)))).2.2
    have hlast := (List.append_inj' hfails (by rw [List.length_singleton, List.length_singleton])).2
    exact absurd (Attempts.digits_of_timedOut (List.singleton_inj.mp hlast)) (by decide +kernel)

end Sender

end HttpSuite
