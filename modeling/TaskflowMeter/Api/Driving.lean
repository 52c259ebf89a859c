import TaskflowMeter.Api.EventStream

/-!
# The two loops that drive a cursor

`iterFrames` runs in a worker thread, `aiterFrames` on an event loop, where a stop event can end it.
Both are given what the polls of a cursor return, so that nothing else tells them apart.  What a
loop sends is kept poll by poll.  A stop event is the number of times it is found unset: nobody
clears it, and when it is set between two looks makes no difference.

## Main definitions

* `Polled` — what one poll returns.
* `iterRounds`, `iterFrames` — the loop of the thread.
* `aiterRounds`, `aiterFrames` — the loop on the event loop.
* `KeepsAlive` — a stretch of quiet polls sends a keep-alive.
* `polls` — the polls of a cursor.

## Main results

* `aiterFrames_none` — **without a stop event both send the same.**
* `aiterFrames_prefix` — a stop event only cuts it short.
* `keepsAlive_aiterRounds` — **no stretch of quiet polls is too long.**
* `iterFrames_polls` — the loop over the polls of a cursor is the one over its datasource.
-/

namespace TaskflowMeter

namespace Driving

/-- What one poll returns, and whether the cursor is complete after it. -/
structure Polled where
  frames : List (List UInt8)
  complete : Bool
  /-- A poll that completes the stream returns the frame that says so. -/
  ends : complete = true → frames ≠ []

/-! ### The loop of a thread -/

/-- What `iterFrames` sends after the opening bytes, for each poll. -/
def iterRounds (interval heartbeat : ℚ) : ℚ → List Polled → List (List (List UInt8))
  | _, [] => []
  | quiet, poll :: polls =>
      if poll.complete then [poll.frames]
      else
        let quiet := if poll.frames.isEmpty then quiet + interval else 0
        if heartbeat ≤ quiet then
          (poll.frames ++ [Sse.heartbeat]) :: iterRounds interval heartbeat 0 polls
        else poll.frames :: iterRounds interval heartbeat quiet polls

/-- Drive a cursor synchronously. -/
def iterFrames (interval heartbeat : ℚ) (polls : List Polled) : List (List UInt8) :=
  Sse.opening :: (iterRounds interval heartbeat 0 polls).flatten

/-! ### The loop on an event loop -/

/-- `stop is not None and stop.is_set()`, for an event that is found unset so many times. -/
def isSet : Option ℕ → Bool
  | some 0 => true
  | _ => false

/-- The event after it was found unset. -/
def looked : Option ℕ → Option ℕ
  | some (n + 1) => some n
  | stop => stop

/-- What came of sending the frames of a poll. -/
structure Sent where
  chunks : List (List UInt8)
  /-- The event was found set before a frame. -/
  stopped : Bool
  stop : Option ℕ

/-- `for chunk in frames`. -/
def sendFrames : Option ℕ → List (List UInt8) → Sent
  | stop, [] => { chunks := [], stopped := false, stop := stop }
  | stop, chunk :: frames =>
      if isSet stop then { chunks := [], stopped := true, stop := stop }
      else
        let sent := sendFrames (looked stop) frames
        { sent with chunks := chunk :: sent.chunks }

/-- What `aiterFrames` sends after the opening bytes, for each poll. -/
def aiterRounds (interval heartbeat : ℚ) : Option ℕ → ℚ → List Polled → List (List (List UInt8))
  | _, _, [] => []
  | stop, quiet, poll :: polls =>
      if isSet stop then []
      else
        let sent := sendFrames (looked stop) poll.frames
        if sent.stopped || poll.complete then [sent.chunks]
        else
          let quiet := if poll.frames.isEmpty then quiet + interval else 0
          if heartbeat ≤ quiet then
            (sent.chunks ++ [Sse.heartbeat]) :: aiterRounds interval heartbeat sent.stop 0 polls
          else sent.chunks :: aiterRounds interval heartbeat sent.stop quiet polls

/-- Drive a cursor from an event loop. -/
def aiterFrames (stop : Option ℕ) (interval heartbeat : ℚ) (polls : List Polled) :
    List (List UInt8) :=
  Sse.opening :: (aiterRounds interval heartbeat stop 0 polls).flatten

@[simp] theorem isSet_none : isSet none = false := rfl

@[simp] theorem looked_none : looked none = none := rfl

@[simp] theorem sendFrames_nil (stop : Option ℕ) :
    sendFrames stop [] = { chunks := [], stopped := false, stop := stop } := rfl

/-! ### Both loops send the same -/

theorem sendFrames_none (frames : List (List UInt8)) :
    sendFrames none frames = { chunks := frames, stopped := false, stop := none } := by
  induction frames with
  | nil => rfl
  | cons chunk frames ih => simp [sendFrames, ih]

theorem aiterRounds_none (interval heartbeat : ℚ) (polls : List Polled) :
    ∀ quiet, aiterRounds interval heartbeat none quiet polls
      = iterRounds interval heartbeat quiet polls := by
  induction polls with
  | nil => exact fun _ => rfl
  | cons poll polls ih => simp [aiterRounds, iterRounds, sendFrames_none, ih]

/-- **Without a stop event both loops send the same.** -/
theorem aiterFrames_none (interval heartbeat : ℚ) (polls : List Polled) :
    aiterFrames none interval heartbeat polls = iterFrames interval heartbeat polls := by
  rw [aiterFrames, iterFrames, aiterRounds_none]

/-- A stop event cuts the frames of a poll short, or lets them all through. -/
theorem sendFrames_prefix (frames : List (List UInt8)) :
    ∀ stop, (sendFrames stop frames).chunks <+: frames
      ∧ ((sendFrames stop frames).stopped = false → (sendFrames stop frames).chunks = frames) := by
  induction frames with
  | nil => simp
  | cons chunk frames ih =>
    intro stop
    rw [sendFrames]
    split
    · exact ⟨List.nil_prefix, by simp⟩
    · obtain ⟨hbegin, hall⟩ := ih (looked stop)
      exact ⟨List.cons_prefix_cons.mpr ⟨rfl, hbegin⟩, fun h => congrArg _ (hall h)⟩

theorem flatten_aiterRounds_prefix (interval heartbeat : ℚ) (polls : List Polled) :
    ∀ stop quiet, (aiterRounds interval heartbeat stop quiet polls).flatten
      <+: (iterRounds interval heartbeat quiet polls).flatten := by
  induction polls with
  | nil => exact fun _ _ => List.prefix_rfl
  | cons poll polls ih =>
    intro stop quiet
    obtain ⟨hbegin, hall⟩ := sendFrames_prefix poll.frames (looked stop)
    have hfirst : poll.frames <+: (iterRounds interval heartbeat quiet
        (poll :: polls)).flatten := by
      rw [iterRounds]
      dsimp only
      split_ifs <;> simp
    rw [aiterRounds]
    dsimp only
    generalize hsent : sendFrames (looked stop) poll.frames = sent at hbegin hall
    by_cases hset : isSet stop = true
    · simp [hset]
    · rw [if_neg hset]
      cases hstopped : sent.stopped with
      | true => simpa using hbegin.trans hfirst
      | false =>
        rw [hall hstopped, iterRounds]
        dsimp only
        cases poll.complete with
        | true => simp
        | false =>
          simp only [Bool.or_self, Bool.false_eq_true, if_false]
          split_ifs <;> simpa using ih _ _

theorem aiterFrames_prefix (stop : Option ℕ) (interval heartbeat : ℚ) (polls : List Polled) :
    aiterFrames stop interval heartbeat polls <+: iterFrames interval heartbeat polls :=
  List.cons_prefix_cons.mpr ⟨rfl, flatten_aiterRounds_prefix interval heartbeat polls stop 0⟩

/-! ### Keeping the connection alive -/

/-- A stretch of polls without a frame, as long as the heartbeat, sends a keep-alive. -/
def KeepsAlive (interval heartbeat : ℚ) (polls : List Polled) (rounds : List (List (List UInt8))) :
    Prop :=
  ∀ i k : ℕ, i + k ≤ rounds.length → (∀ poll ∈ (polls.drop i).take k, poll.frames = []) →
    heartbeat ≤ k * interval → ∃ round ∈ (rounds.drop i).take k, Sse.heartbeat ∈ round

section

variable {interval heartbeat : ℚ}

/-- A poll without a frame either sends a keep-alive or adds to the quiet time. -/
theorem aiterRounds_quiet {stop : Option ℕ} {quiet : ℚ} {poll : Polled} {polls : List Polled}
    (hset : isSet stop = false) (hframes : poll.frames = []) :
    aiterRounds interval heartbeat stop quiet (poll :: polls)
      = if heartbeat ≤ quiet + interval then
          [Sse.heartbeat] :: aiterRounds interval heartbeat (looked stop) 0 polls
        else [] :: aiterRounds interval heartbeat (looked stop) (quiet + interval) polls := by
  have hcomplete : poll.complete = false := by
    by_contra h
    exact poll.ends (by simpa using h) hframes
  rw [aiterRounds]
  simp [hset, hframes, hcomplete]

/-- A stretch of quiet polls from the first one on. -/
theorem exists_heartbeat {polls : List Polled} :
    ∀ {stop : Option ℕ} {quiet : ℚ} {k : ℕ}, quiet < heartbeat →
      k ≤ (aiterRounds interval heartbeat stop quiet polls).length →
      (∀ poll ∈ polls.take k, poll.frames = []) → heartbeat ≤ quiet + k * interval →
      ∃ round ∈ (aiterRounds interval heartbeat stop quiet polls).take k,
        Sse.heartbeat ∈ round := by
  induction polls with
  | nil =>
    intro stop quiet k hquiet hk hframes hlong
    obtain rfl : k = 0 := by simpa [aiterRounds] using hk
    simp only [Nat.cast_zero, zero_mul, add_zero] at hlong
    exact absurd hlong (not_le.mpr hquiet)
  | cons poll polls ih =>
    intro stop quiet k hquiet hk hframes hlong
    cases k with
    | zero =>
      simp only [Nat.cast_zero, zero_mul, add_zero] at hlong
      exact absurd hlong (not_le.mpr hquiet)
    | succ k =>
      have hset : isSet stop = false := by
        by_contra h
        rw [aiterRounds, if_pos (by simpa using h)] at hk
        simp at hk
      have hpoll : poll.frames = [] := hframes poll (by simp)
      rw [aiterRounds_quiet hset hpoll] at hk ⊢
      split at hk
      · next hreached => simp [if_pos hreached]
      · next hreached =>
        rw [if_neg hreached, List.take_succ_cons]
        have hlong' : heartbeat ≤ quiet + interval + k * interval := by
          push_cast at hlong
          linarith
        obtain ⟨round, hround, hmem⟩ := ih (not_le.mp hreached) (by simpa using hk)
          (fun p hp => hframes p (by simp [hp])) hlong'
        exact ⟨round, List.mem_cons_of_mem _ hround, hmem⟩

/-- One poll: the loop is at its end, or it goes on with a quiet time below the heartbeat. -/
theorem aiterRounds_cons (hinterval : 0 < interval) (hheartbeat : 0 < heartbeat) {quiet : ℚ}
    (hquiet : 0 ≤ quiet) (stop : Option ℕ) (poll : Polled) (polls : List Polled) :
    (aiterRounds interval heartbeat stop quiet (poll :: polls)).length ≤ 1
      ∨ ∃ chunks stop' quiet', 0 ≤ quiet' ∧ quiet' < heartbeat
        ∧ aiterRounds interval heartbeat stop quiet (poll :: polls)
          = chunks :: aiterRounds interval heartbeat stop' quiet' polls := by
  have hnext : 0 ≤ if poll.frames.isEmpty then quiet + interval else 0 := by
    split_ifs
    · linarith
    · exact le_rfl
  rw [aiterRounds]
  dsimp only
  generalize (if poll.frames.isEmpty then quiet + interval else 0) = next at hnext ⊢
  generalize sendFrames (looked stop) poll.frames = sent
  split_ifs with hset hstopped hreached
  · exact Or.inl (by simp)
  · exact Or.inl (by simp)
  · exact Or.inr ⟨_, sent.stop, 0, le_rfl, hheartbeat, rfl⟩
  · exact Or.inr ⟨_, sent.stop, next, hnext, not_le.mp hreached, rfl⟩

/-- What is sent from some poll on is what a loop with a quiet time below the heartbeat sends. -/
theorem drop_aiterRounds (hinterval : 0 < interval) (hheartbeat : 0 < heartbeat)
    {polls : List Polled} :
    ∀ {stop : Option ℕ} {quiet : ℚ} {i : ℕ}, 0 ≤ quiet → quiet < heartbeat →
      i < (aiterRounds interval heartbeat stop quiet polls).length →
      ∃ stop' quiet', 0 ≤ quiet' ∧ quiet' < heartbeat
        ∧ (aiterRounds interval heartbeat stop quiet polls).drop i
          = aiterRounds interval heartbeat stop' quiet' (polls.drop i) := by
  induction polls with
  | nil =>
    intro stop quiet i _ _ hi
    simp [aiterRounds] at hi
  | cons poll polls ih =>
    intro stop quiet i hquiet hlt hi
    cases i with
    | zero => exact ⟨stop, quiet, hquiet, hlt, rfl⟩
    | succ i =>
      rcases aiterRounds_cons hinterval hheartbeat hquiet stop poll polls with
        hlast | ⟨chunks, stop', quiet', hquiet', hlt', hrounds⟩
      · omega
      · rw [hrounds] at hi ⊢
        exact ih hquiet' hlt' (by simpa using hi)

/-- **No stretch of quiet polls is too long.** -/
theorem keepsAlive_aiterRounds (hinterval : 0 < interval) (hheartbeat : 0 < heartbeat)
    (stop : Option ℕ) (polls : List Polled) :
    KeepsAlive interval heartbeat polls (aiterRounds interval heartbeat stop 0 polls) := by
  intro i k hmade hframes hlong
  have hpos : 0 < k := by
    rcases Nat.eq_zero_or_pos k with rfl | hpos
    · simp only [Nat.cast_zero, zero_mul] at hlong
      exact absurd hlong (not_le.mpr hheartbeat)
    · exact hpos
  obtain ⟨stop', quiet', hnonneg, hlt, hdrop⟩ := drop_aiterRounds (i := i) hinterval hheartbeat
    le_rfl hheartbeat (show i < (aiterRounds interval heartbeat stop 0 polls).length by omega)
  have hmade' : k ≤ (aiterRounds interval heartbeat stop' quiet' (polls.drop i)).length := by
    rw [← hdrop, List.length_drop]
    omega
  rw [hdrop]
  exact exists_heartbeat hlt hmade' hframes (by linarith)

end

/-- **The two loops agree.**  Without a stop event they send the same chunks; with one, set at any
moment, the loop on the event loop sends a beginning of them; and both keep the connection alive
through quiet polls. -/
theorem loops_agree {interval heartbeat : ℚ} (hinterval : 0 < interval) (hheartbeat : 0 < heartbeat)
    (polls : List Polled) :
    aiterFrames none interval heartbeat polls = iterFrames interval heartbeat polls
      ∧ (∀ n, aiterFrames (some n) interval heartbeat polls <+: iterFrames interval heartbeat polls)
      ∧ KeepsAlive interval heartbeat polls (iterRounds interval heartbeat 0 polls)
      ∧ ∀ stop, KeepsAlive interval heartbeat polls
        (aiterRounds interval heartbeat stop 0 polls) := by
  refine ⟨aiterFrames_none interval heartbeat polls,
    fun n => aiterFrames_prefix (some n) interval heartbeat polls, ?_,
    fun stop => keepsAlive_aiterRounds hinterval hheartbeat stop polls⟩
  rw [← aiterRounds_none]
  exact keepsAlive_aiterRounds hinterval hheartbeat none polls

/-- A poll without a frame. -/
def quietPoll : Polled := { frames := [], complete := false, ends := Bool.noConfusion }

theorem loops_agree_quiet :
    Sse.heartbeat ∈ iterFrames 1 2 [quietPoll, quietPoll, quietPoll] := by
  obtain ⟨-, -, halive, -⟩ := loops_agree (by norm_num : (0 : ℚ) < 1) (by norm_num : (0 : ℚ) < 2)
    [quietPoll, quietPoll, quietPoll]
  obtain ⟨round, hround, hmem⟩ := halive 0 2 (by decide +kernel) (by simp [quietPoll]) (by norm_num)
  exact List.mem_cons_of_mem _ (List.mem_flatten_of_mem (List.mem_of_mem_take hround) hmem)

/-! ### The polls of a cursor -/

/-- A poll that completes the stream has the frame that ends it. -/
theorem ends_poll {dumps : Json → String} {cursor next : EventCursor} {reader : DataSource}
    {chunks : List Sse.Chunk} (hopen : cursor.complete = false)
    (hpoll : Sse.poll cursor reader = .ok (chunks, next)) :
    next.complete = true → chunks.map (Sse.Chunk.bytes dumps) ≠ [] := by
  intro hcomplete hnil
  rw [Sse.poll] at hpoll
  split at hpoll
  · simp at hpoll
  · dsimp only at hpoll
    split at hpoll
    · obtain ⟨rfl, -⟩ := Prod.mk.inj (Except.ok.inj hpoll)
      simp at hnil
    · obtain ⟨-, rfl⟩ := Prod.mk.inj (Except.ok.inj hpoll)
      exact absurd hcomplete (by simp [hopen])

theorem open_of_not_complete {cursor : EventCursor} (h : ¬cursor.complete = true) :
    cursor.complete = false := by simpa using h

/-- What the polls of a cursor return over a datasource, as it is at each. -/
def polls (dumps : Json → String) :
    (cursor : EventCursor) → cursor.complete = false → List DataSource → List Polled
  | _, _, [] => []
  | cursor, hopen, reader :: readers =>
      match hpoll : Sse.poll cursor reader with
      | .error _ => []
      | .ok (chunks, next) =>
          { frames := chunks.map (Sse.Chunk.bytes dumps)
            complete := next.complete
            ends := ends_poll hopen hpoll }
            :: if hnext : next.complete = true then []
              else polls dumps next (open_of_not_complete hnext) readers

theorem polls_error {dumps : Json → String} {cursor : EventCursor} {reader : DataSource}
    {message : String} (hopen : cursor.complete = false)
    (hpoll : Sse.poll cursor reader = .error message) (readers : List DataSource) :
    polls dumps cursor hopen (reader :: readers) = [] := by
  rw [polls]
  split
  · rfl
  · next hok => rw [hpoll] at hok; cases hok

theorem polls_ok {dumps : Json → String} {cursor next : EventCursor} {reader : DataSource}
    {chunks : List Sse.Chunk} (hopen : cursor.complete = false)
    (hpoll : Sse.poll cursor reader = .ok (chunks, next)) (readers : List DataSource) :
    polls dumps cursor hopen (reader :: readers)
      = { frames := chunks.map (Sse.Chunk.bytes dumps)
          complete := next.complete
          ends := ends_poll hopen hpoll }
        :: if hnext : next.complete = true then []
          else polls dumps next (open_of_not_complete hnext) readers := by
  rw [polls]
  split
  · next herror => rw [hpoll] at herror; cases herror
  · next hok =>
    rw [hpoll] at hok
    cases hok
    rfl

theorem map_drive (dumps : Json → String) (interval heartbeat : ℚ) (readers : List DataSource) :
    ∀ (quiet : ℚ) (cursor : EventCursor) (hopen : cursor.complete = false),
      (Sse.drive interval heartbeat quiet cursor readers).map (Sse.Chunk.bytes dumps)
        = (iterRounds interval heartbeat quiet (polls dumps cursor hopen readers)).flatten := by
  induction readers with
  | nil => intro quiet cursor hopen; rfl
  | cons reader readers ih =>
    intro quiet cursor hopen
    rw [Sse.drive]
    cases hpoll : Sse.poll cursor reader with
    | error message =>
      rw [polls_error hopen hpoll]
      rfl
    | ok sent =>
      obtain ⟨chunks, next⟩ := sent
      rw [polls_ok hopen hpoll, iterRounds]
      dsimp only
      by_cases hnext : next.complete = true
      · simp [hnext]
      · rw [if_neg hnext, if_neg hnext, dif_neg hnext, List.isEmpty_map]
        generalize (if chunks.isEmpty then quiet + interval else 0) = quiet'
        by_cases hreached : heartbeat ≤ quiet'
        · simp [hreached, ih _ _ (open_of_not_complete hnext), Sse.Chunk.bytes]
        · simp [hreached, ih _ _ (open_of_not_complete hnext)]

/-- **The loop over the polls of a cursor is the one over its datasource.** -/
theorem iterFrames_polls (dumps : Json → String) (interval heartbeat : ℚ) {cursor : EventCursor}
    (hopen : cursor.complete = false) (readers : List DataSource) :
    Sse.iterFrames dumps interval heartbeat cursor readers
      = iterFrames interval heartbeat (polls dumps cursor hopen readers) := by
  rw [Sse.iterFrames, iterFrames, map_drive dumps interval heartbeat readers 0 cursor hopen]

end Driving

end TaskflowMeter
