import Memlink.Base.Transition
import Memlink.Config.Load

/-!
# Sleeping and waiting

`SleepApprox` (`util.c:65–82`), `SemTimeWait` (`util.c:616–643`) and their callers `main`
(`main.c:139–145`) and `CreateEventThread` (`memlink_core.c:26–60`). Seconds since the epoch
are exact integers: `time_t` does not come near its end. The `int` arithmetic of
`SemTimeWait` is that of `Int32`.
-/

namespace Memlink

open CString Transition

/-- `struct timeval` as `gettimeofday` fills it. -/
structure Timeval where
  sec : Int
  usec : Int
  usec_range : 0 ≤ usec ∧ usec < 1000000

/-- `struct timespec`. -/
structure Timespec where
  sec : Int
  nsec : Int
  deriving DecidableEq, Repr

/-- A time in nanoseconds. -/
def Timeval.ns (tv : Timeval) : Int := tv.sec * 1000000000 + tv.usec * 1000

/-- A time or duration in nanoseconds. -/
def Timespec.ns (ts : Timespec) : Int := ts.sec * 1000000000 + ts.nsec

/-- The nanoseconds are a part of a second. -/
def Timespec.Normalised (ts : Timespec) : Prop := 0 ≤ ts.nsec ∧ ts.nsec < 1000000000

/-- The durations that `nanosleep` accepts. -/
def Timespec.Valid (ts : Timespec) : Prop := 0 ≤ ts.sec ∧ ts.Normalised

instance (ts : Timespec) : Decidable ts.Normalised :=
  inferInstanceAs (Decidable (0 ≤ ts.nsec ∧ ts.nsec < 1000000000))

instance (ts : Timespec) : Decidable ts.Valid :=
  inferInstanceAs (Decidable (0 ≤ ts.sec ∧ ts.Normalised))

/-! ### `SleepApprox` -/

/-- The loop that borrows seconds until the nanoseconds are not negative. -/
def borrowSeconds (ts : Timespec) : Timespec :=
  if ts.nsec < 0 then borrowSeconds ⟨ts.sec - 1, ts.nsec + 1000000000⟩ else ts
termination_by (-ts.nsec).toNat

/-- The argument of `nanosleep` in `SleepApprox`. -/
def sleepApprox (tv : Timeval) (seconds : Int32) : Timespec :=
  borrowSeconds ⟨seconds.toInt, -tv.usec * 1000⟩

/-- The calls of `SleepApprox`: the main loop, the threads that serve libvirt events, and the
balloon thread. -/
inductive Sleeper where
  | main (g : Settings)
  | event
  | balloon

/-- The argument of a call. -/
def Sleeper.seconds : Sleeper → Int32
  | main g => g.hostInfoPollTime / 1000
  | event => 1
  | balloon => 2

/-- The call sleeps as it should: for a duration that `nanosleep` accepts, up to a second
shorter than asked for, and to the end of a second. -/
structure SleepsToSecond (tv : Timeval) (seconds : Int32) : Prop where
  valid : (sleepApprox tv seconds).Valid
  lower : (seconds.toInt - 1) * 1000000000 < (sleepApprox tv seconds).ns
  upper : (sleepApprox tv seconds).ns ≤ seconds.toInt * 1000000000
  whole : (tv.ns + (sleepApprox tv seconds).ns) % 1000000000 = 0

/-- The loop runs at most once. -/
theorem sleepApprox_eq (tv : Timeval) (seconds : Int32) :
    sleepApprox tv seconds =
      if tv.usec = 0 then ⟨seconds.toInt, 0⟩
      else ⟨seconds.toInt - 1, 1000000000 - tv.usec * 1000⟩ := by
  obtain ⟨hlo, hhi⟩ := tv.usec_range
  unfold sleepApprox
  rw [borrowSeconds]
  dsimp only
  split
  · next hneg =>
    rw [borrowSeconds, if_neg (by dsimp only; omega), if_neg (by omega)]
    congr 1
    omega
  · next hneg =>
    rw [if_pos (by omega)]
    congr 1
    omega

/-- A non-negative argument is served exactly if it is positive or the clock stands at the
start of a second. -/
theorem sleepsToSecond_iff (tv : Timeval) {seconds : Int32} (h : 0 ≤ seconds.toInt) :
    SleepsToSecond tv seconds ↔ 1 ≤ seconds.toInt ∨ tv.usec = 0 := by
  obtain ⟨hlo, hhi⟩ := tv.usec_range
  have heq := sleepApprox_eq tv seconds
  constructor
  · rintro ⟨⟨hsec, -⟩, -, -, -⟩
    rw [heq] at hsec
    by_cases hzero : tv.usec = 0
    · exact .inr hzero
    · rw [if_neg hzero] at hsec
      dsimp only at hsec
      exact .inl (by omega)
  · intro hor
    by_cases hzero : tv.usec = 0
    · rw [if_pos hzero] at heq
      constructor <;> rw [heq] <;>
        simp only [Timespec.Valid, Timespec.Normalised, Timespec.ns, Timeval.ns] <;> omega
    · rw [if_neg hzero] at heq
      constructor <;> rw [heq] <;>
        simp only [Timespec.Valid, Timespec.Normalised, Timespec.ns, Timeval.ns] <;> omega

/-- The settings behind a call are those a load can install. -/
def Sleeper.Configured : Sleeper → Prop
  | main g => g.InRange
  | event => True
  | balloon => True

/-- The call asks for a second or more. -/
def Sleeper.FullSecond : Sleeper → Prop
  | main g => 1000 ≤ g.hostInfoPollTime
  | event => True
  | balloon => True

/-- Division of a non-negative `int` by a positive one. -/
theorem toInt32_div {a b : Int32} (ha : 0 ≤ a.toInt) (hb : 1 ≤ b.toInt) :
    (a / b).toInt = a.toInt / b.toInt := by
  have hne : b ≠ -1 := by
    rintro rfl
    exact absurd hb (by decide)
  rw [Int32.toInt_div_of_ne_right a b hne, Int.tdiv_eq_ediv_of_nonneg ha]

/-- The seconds of a configured call. -/
theorem Sleeper.seconds_nonneg {c : Sleeper} (h : c.Configured) :
    0 ≤ c.seconds.toInt ∧ (1 ≤ c.seconds.toInt ↔ c.FullSecond) := by
  cases c with
  | main g =>
    have hlo : 100 ≤ g.hostInfoPollTime.toInt :=
      Int32.le_iff_toInt_le.mp (h .hostInfoPollTime).1
    have hdiv : (g.hostInfoPollTime / 1000).toInt = g.hostInfoPollTime.toInt / 1000 :=
      toInt32_div (by omega) (by decide)
    have hfull : 1000 ≤ g.hostInfoPollTime ↔ 1000 ≤ g.hostInfoPollTime.toInt :=
      Int32.le_iff_toInt_le
    change 0 ≤ (g.hostInfoPollTime / 1000).toInt ∧
      (1 ≤ (g.hostInfoPollTime / 1000).toInt ↔ 1000 ≤ g.hostInfoPollTime)
    rw [hdiv, hfull]
    omega
  | event => exact ⟨by decide, fun _ ↦ trivial, fun _ ↦ by decide⟩
  | balloon => exact ⟨by decide, fun _ ↦ trivial, fun _ ↦ by decide⟩

/-- When the daemon really sleeps: for every call, with every poll time that a load can
install, and every value of the clock, the call sleeps as it should exactly when it asks for a
second or more or the clock stands at the start of a second, and it waits at all exactly when
it asks for a second or more. -/
theorem sleeper_sleeps_iff (c : Sleeper) (tv : Timeval) (h : c.Configured) :
    (SleepsToSecond tv c.seconds ↔ c.FullSecond ∨ tv.usec = 0) ∧
      ((sleepApprox tv c.seconds).Valid ∧ 0 < (sleepApprox tv c.seconds).ns ↔ c.FullSecond) := by
  obtain ⟨hnonneg, hfull⟩ := Sleeper.seconds_nonneg h
  refine ⟨by rw [sleepsToSecond_iff tv hnonneg, hfull], ?_⟩
  rw [← hfull]
  obtain ⟨hlo, hhi⟩ := tv.usec_range
  rw [sleepApprox_eq]
  by_cases hzero : tv.usec = 0
  · rw [if_pos hzero]
    simp only [Timespec.Valid, Timespec.Normalised, Timespec.ns]
    omega
  · rw [if_neg hzero]
    simp only [Timespec.Valid, Timespec.Normalised, Timespec.ns]
    omega

/-- The main loop sleeps with the poll time the daemon starts with. -/
theorem sleeper_sleeps_default :
    SleepsToSecond ⟨1700000000, 250000, by decide⟩ (Sleeper.main Settings.initial).seconds :=
  (sleeper_sleeps_iff (.main Settings.initial) ⟨1700000000, 250000, by decide⟩
    Settings.initial_inRange).1.mpr (.inl (by change (1000 : Int32) ≤ 1000; decide))

/-- A file with a poll time of half a second. -/
def halfSecondFile : CfgEnv := ⟨some (bytes "host_info_poll_time=500\n"), true, true⟩

/-- A poll time of half a second is installed, and one microsecond into a second the main loop
asks for a negative duration. -/
theorem half_second_busy :
    ¬ ∀ (c : Sleeper) (tv : Timeval), c.Configured → SleepsToSecond tv c.seconds := by
  intro h
  have hload := loadCfgFile_inRange halfSecondFile false Settings.initial_inRange
  have hpoll : (loadCfgFile halfSecondFile Settings.initial false).1.hostInfoPollTime = 500 := by
    decide +kernel
  have hseconds : (Sleeper.main (loadCfgFile halfSecondFile Settings.initial false).1).seconds
      = 0 := by
    change (loadCfgFile halfSecondFile Settings.initial false).1.hostInfoPollTime / 1000 = 0
    rw [hpoll]
    decide
  have hvalid := (h (.main (loadCfgFile halfSecondFile Settings.initial false).1)
    ⟨0, 1, by decide⟩ hload).valid
  rw [hseconds, sleepApprox_eq] at hvalid
  revert hvalid
  decide

/-! ### `SemTimeWait` -/

/-- `ts` in `SemTimeWait`: the deadline. -/
def semDeadline (tv : Timeval) (ms : Int32) : Timespec :=
  let ts : Timespec :=
    ⟨tv.sec + (ms / 1000).toInt, tv.usec * 1000 + (ms % 1000 * 1000000).toInt⟩
  if ts.nsec ≥ 1000000000 then ⟨ts.sec + 1, ts.nsec - 1000000000⟩ else ts

/-- The outcomes of one `sem_timedwait`: 0, or -1 with `EINTR`, `ETIMEDOUT` or `EINVAL`. -/
inductive SemResult where
  | acquired
  | interrupted
  | timedOut
  | invalid
  deriving DecidableEq, Repr

/-- The loop that waits again after `EINTR`: the outcome it ends with, if it ends. -/
def semWaitLoop : List SemResult → Option SemResult
  | [] => none
  | .interrupted :: results => semWaitLoop results
  | r :: _ => some r

/-- `SemTimeWait`, where `wait` gives the outcomes of `sem_timedwait` for a deadline; `none` if
it still waits after them. The time is `none` if `gettimeofday` fails. -/
def semTimeWait (now : Option Timeval) (ms : Int32) (wait : Timespec → List SemResult) :
    Option Int :=
  match now with
  | none => some (-1)
  | some tv =>
    match semWaitLoop (wait (semDeadline tv ms)) with
    | none => none
    | some .timedOut => some (-1)
    | some _ => some 0

/-- What happens at the semaphore: the event thread posts, or a wait of the main thread
ends. -/
inductive SemEvent where
  | post
  | wait (r : SemResult)
  deriving DecidableEq, Repr

/-- The count of the semaphore. -/
def SemEvent.step (count : Nat) : SemEvent → Nat
  | post => count + 1
  | wait .acquired => count - 1
  | wait _ => count

/-- A semaphore is acquired only while its count is positive. -/
def SemEvent.Allowed (count : Nat) (e : SemEvent) : Prop := e = wait .acquired → 0 < count

/-- The outcome of a wait. -/
def SemEvent.result : SemEvent → Option SemResult
  | post => none
  | wait r => some r

/-- The environment of `CreateEventThread`: the success of its calls, the time, and what
happens at `readySem` for a deadline. The semaphore starts at 0, and `EINVAL` is for deadlines
whose nanoseconds are out of range. -/
structure EventStart where
  memset : Bool
  semInit : Bool
  threadCreate : Bool
  now : Option Timeval
  events : Timespec → List SemEvent
  counted : ∀ ts, StepsMeet SemEvent.step SemEvent.Allowed 0 (events ts)
  invalid : ∀ ts, .wait .invalid ∈ events ts → ¬ ts.Normalised

/-- `CreateEventThread`: the result and whether `g_stopMemlinkd` was set; `none` while the main
thread waits. -/
def createEventThread (g : Settings) (start : EventStart) : Option (Int × Bool) :=
  if start.memset = false then some (-1, false)
  else if start.semInit = false then some (-1, false)
  else if start.threadCreate = false then some (-1, false)
  else
    match semTimeWait start.now g.initSemWaitTimeout
        (fun ts ↦ (start.events ts).filterMap SemEvent.result) with
    | none => none
    | some rc => if rc < 0 then some (-1, true) else some (0, false)

/-- A call of `sem_timedwait` acquired the semaphore, after interruptions only. -/
def Acquires (results : List SemResult) : Prop :=
  ∃ n rest, results = List.replicate n .interrupted ++ .acquired :: rest

/-- The loop ends with the first outcome that is not an interruption. -/
theorem semWaitLoop_eq_some {results : List SemResult} {r : SemResult} :
    semWaitLoop results = some r ↔ r ≠ .interrupted ∧
      ∃ n rest, results = List.replicate n .interrupted ++ r :: rest := by
  constructor
  · intro h
    induction results with
    | nil => cases h
    | cons s results ih =>
      by_cases hs : s = .interrupted
      · subst hs
        obtain ⟨hr, n, rest, rfl⟩ := ih h
        exact ⟨hr, n + 1, rest, rfl⟩
      · have hfirst : semWaitLoop (s :: results) = some s := by
          cases s <;> first | rfl | exact absurd rfl hs
        obtain rfl := Option.some.inj (hfirst.symm.trans h)
        exact ⟨hs, 0, results, rfl⟩
  · rintro ⟨hr, n, rest, rfl⟩
    induction n with
    | zero => cases r <;> first | rfl | exact absurd rfl hr
    | succ n ih => exact ih

/-- The loop ends if some outcome is not an interruption. -/
theorem semWaitLoop_ends {results : List SemResult} (h : ∃ r ∈ results, r ≠ .interrupted) :
    ∃ r, semWaitLoop results = some r := by
  obtain ⟨r, hmem, hr⟩ := h
  induction results with
  | nil => cases hmem
  | cons s results ih =>
    by_cases hs : s = .interrupted
    · subst hs
      rcases List.mem_cons.mp hmem with heq | hmem
      · exact absurd heq hr
      · exact ih hmem
    · exact ⟨s, by cases s <;> first | rfl | exact absurd rfl hs⟩

/-- The `int` arithmetic of the deadline is exact. -/
theorem semDeadline_int {ms : Int32} (h : 0 ≤ ms) :
    (ms / 1000).toInt = ms.toInt / 1000 ∧ (ms % 1000).toInt = ms.toInt % 1000 ∧
      (ms % 1000 * 1000000).toInt = ms.toInt % 1000 * 1000000 := by
  have hnonneg : 0 ≤ ms.toInt := Int32.le_iff_toInt_le.mp h
  have hmod : (ms % 1000).toInt = ms.toInt % 1000 := by
    rw [Int32.toInt_mod, Int.tmod_eq_emod_of_nonneg hnonneg]
    rfl
  refine ⟨toInt32_div hnonneg (by decide), hmod, ?_⟩
  rw [Int32.toInt_mul, hmod]
  change (ms.toInt % 1000 * 1000000).bmod (2 ^ 32) = ms.toInt % 1000 * 1000000
  exact Int.bmod_eq_of_le (by omega) (by omega)

/-- The deadline is normalised and lies `ms` milliseconds ahead. -/
theorem semDeadline_spec (tv : Timeval) {ms : Int32} (h : 0 ≤ ms) :
    (semDeadline tv ms).Normalised ∧
      (semDeadline tv ms).ns = tv.ns + ms.toInt * 1000000 := by
  obtain ⟨hdiv, -, hmul⟩ := semDeadline_int h
  obtain ⟨hlo, hhi⟩ := tv.usec_range
  have hnonneg : 0 ≤ ms.toInt := Int32.le_iff_toInt_le.mp h
  unfold semDeadline
  dsimp only
  rw [hdiv, hmul]
  split
  · simp only [Timespec.Normalised, Timespec.ns, Timeval.ns]
    omega
  · simp only [Timespec.Normalised, Timespec.ns, Timeval.ns]
    omega

/-- Only posts raise the count. -/
theorem post_mem_of_count {events : List SemEvent} (h : 0 < run SemEvent.step 0 events) :
    .post ∈ events := by
  by_contra hnone
  have hzero : run SemEvent.step 0 events = 0 := by
    clear h
    induction events with
    | nil => rfl
    | cons e events ih =>
      cases e with
      | post => exact absurd List.mem_cons_self hnone
      | wait r =>
        have hstep : SemEvent.step 0 (.wait r) = 0 := by cases r <;> rfl
        rw [run_cons, hstep]
        exact ih fun hmem ↦ hnone (List.mem_cons_of_mem _ hmem)
  omega

/-- If `EINVAL` is for deadlines out of range only, the wait returns 0 exactly when the
semaphore was acquired. -/
theorem semTimeWait_eq_zero_iff (tv : Timeval) {ms : Int32} (h : 0 ≤ ms)
    {wait : Timespec → List SemResult}
    (hinvalid : .invalid ∈ wait (semDeadline tv ms) → ¬ (semDeadline tv ms).Normalised) :
    semTimeWait (some tv) ms wait = some 0 ↔ Acquires (wait (semDeadline tv ms)) := by
  have hnormal := (semDeadline_spec tv h).1
  unfold semTimeWait
  dsimp only
  constructor
  · intro hzero
    cases hloop : semWaitLoop (wait (semDeadline tv ms)) with
    | none =>
      rw [hloop] at hzero
      cases hzero
    | some r =>
      rw [hloop] at hzero
      obtain ⟨hr, n, rest, hresults⟩ := semWaitLoop_eq_some.mp hloop
      cases r with
      | acquired => exact ⟨n, rest, hresults⟩
      | interrupted => exact absurd rfl hr
      | timedOut => cases hzero
      | invalid => exact absurd hnormal (hinvalid (by rw [hresults]; simp))
  · rintro ⟨n, rest, hresults⟩
    rw [semWaitLoop_eq_some.mpr ⟨by decide, n, rest, hresults⟩]

/-- The result codes of the wait. -/
theorem semTimeWait_codes {now : Option Timeval} {ms : Int32} {wait : Timespec → List SemResult}
    {rc : Int} (h : semTimeWait now ms wait = some rc) : rc = 0 ∨ rc = -1 := by
  unfold semTimeWait at h
  split at h
  · exact .inr (Option.some.inj h).symm
  · split at h
    · cases h
    · exact .inr (Option.some.inj h).symm
    · exact .inl (Option.some.inj h).symm

/-- `CreateEventThread` goes on only if its wait returns 0. -/
theorem createEventThread_waited {g : Settings} {start : EventStart} {stop : Bool}
    (h : createEventThread g start = some (0, stop)) :
    semTimeWait start.now g.initSemWaitTimeout
      (fun ts ↦ (start.events ts).filterMap SemEvent.result) = some 0 := by
  unfold createEventThread at h
  split at h
  · cases h
  · split at h
    · cases h
    · split at h
      · cases h
      · split at h
        · cases h
        · next rc hrc =>
          rcases semTimeWait_codes hrc with rfl | rfl
          · exact hrc
          · cases h

/-- The outcomes of the waits at the semaphore. -/
theorem mem_results {events : List SemEvent} {r : SemResult} :
    r ∈ events.filterMap SemEvent.result ↔ .wait r ∈ events := by
  rw [List.mem_filterMap]
  constructor
  · rintro ⟨e, he, hres⟩
    cases e with
    | post => cases hres
    | wait s =>
      obtain rfl := Option.some.inj hres
      exact he
  · intro he
    exact ⟨_, he, rfl⟩

/-- `CreateEventThread` goes on only after a post. -/
theorem createEventThread_posted {g : Settings} (hg : g.InRange) {start : EventStart}
    {stop : Bool} (h : createEventThread g start = some (0, stop)) :
    ∃ tv pre rest, start.now = some tv ∧
      start.events (semDeadline tv g.initSemWaitTimeout) = pre ++ .wait .acquired :: rest ∧
      .post ∈ pre := by
  have hms : 0 ≤ g.initSemWaitTimeout :=
    Int32.le_trans (by decide) (hg .initSemWaitTimeout).1
  have hwait := createEventThread_waited h
  cases hnow : start.now with
  | none =>
    rw [hnow] at hwait
    cases hwait
  | some tv =>
    rw [hnow] at hwait
    obtain ⟨n, more, hresults⟩ := (semTimeWait_eq_zero_iff tv hms
      fun hmem ↦ start.invalid _ (mem_results.mp hmem)).mp hwait
    have hacquired : .wait .acquired ∈ start.events (semDeadline tv g.initSemWaitTimeout) := by
      rw [← mem_results, hresults]
      simp
    obtain ⟨pre, rest, hevents⟩ := List.append_of_mem hacquired
    have hcount := (stepsMeet_iff_split _ _ _ _).mp (start.counted _) pre _ rest hevents
    exact ⟨tv, pre, rest, rfl, hevents, post_mem_of_count (hcount rfl)⟩

/-- The wait of the start-up. For every non-negative timeout and every time, the deadline is
normalised and lies the timeout after that time, and no `int` operation on the way overflows;
for every finite sequence of outcomes that is not interruptions only, with `EINVAL` for
deadlines out of range only, the wait ends, and it returns 0 exactly when the semaphore was
acquired. So with every timeout that a load can install, `CreateEventThread` goes on only
after the event thread has posted. -/
theorem semTimeWait_sound (tv : Timeval) (ms : Int32) (h : 0 ≤ ms) :
    ((semDeadline tv ms).Normalised ∧ (semDeadline tv ms).ns = tv.ns + ms.toInt * 1000000) ∧
    ((ms / 1000).toInt = ms.toInt / 1000 ∧ (ms % 1000).toInt = ms.toInt % 1000 ∧
      (ms % 1000 * 1000000).toInt = ms.toInt % 1000 * 1000000) ∧
    (∀ wait : Timespec → List SemResult, (∀ ts, .invalid ∈ wait ts → ¬ ts.Normalised) →
      (∃ r ∈ wait (semDeadline tv ms), r ≠ .interrupted) →
      ∃ rc, semTimeWait (some tv) ms wait = some rc ∧
        (rc = 0 ↔ Acquires (wait (semDeadline tv ms)))) ∧
    (∀ (g : Settings) (start : EventStart) (stop : Bool), g.InRange →
      createEventThread g start = some (0, stop) →
      ∃ now pre rest, start.now = some now ∧
        start.events (semDeadline now g.initSemWaitTimeout) = pre ++ .wait .acquired :: rest ∧
        .post ∈ pre) := by
  refine ⟨semDeadline_spec tv h, semDeadline_int h, ?_, ?_⟩
  · intro wait hinvalid hends
    obtain ⟨r, hr⟩ := semWaitLoop_ends hends
    obtain ⟨rc, hrc⟩ : ∃ rc, semTimeWait (some tv) ms wait = some rc := by
      unfold semTimeWait
      dsimp only
      rw [hr]
      cases r <;> exact ⟨_, rfl⟩
    refine ⟨rc, hrc, ?_⟩
    rw [← semTimeWait_eq_zero_iff tv h (hinvalid _), hrc, Option.some_inj]
  · intro g start stop hg
    exact createEventThread_posted hg

/-- Two and a half seconds ahead, with a carry. -/
theorem semTimeWait_sound_carry :
    semDeadline ⟨100, 700000, by decide⟩ 2500 = ⟨103, 200000000⟩ ∧
      (semDeadline ⟨100, 700000, by decide⟩ 2500).ns =
        Timeval.ns ⟨100, 700000, by decide⟩ + 2500 * 1000000 :=
  ⟨by decide, (semTimeWait_sound ⟨100, 700000, by decide⟩ 2500 (by decide)).1.2⟩

end Memlink
