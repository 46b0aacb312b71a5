import Memlink.Daemon.Lifecycle

/-!
# The semaphore of the start

`CreateEventThread` (`memlink_core.c:27–57`) destroys its semaphore when the wait times out, and
sets `g_stopMemlinkd` to 1 before so that the event thread does not post any more
(`libvirt_helper.c:495–502`). The event thread takes every other value of the flag for leave to
post.
-/

namespace Memlink

open Transition

/-- The semaphore exists. -/
def MainPhase.waits : MainPhase → Bool
  | .createEvent => true
  | .semWait => true
  | .setStop => true
  | .semDestroy _ => true
  | _ => false

/-- The next step destroys the semaphore after a failed wait. -/
def MainPhase.givesUp : MainPhase → Bool
  | .semDestroy ret => decide (ret < 0)
  | _ => false

/-- Giving up is a failure. -/
theorem MainPhase.failing_of_givesUp {p : MainPhase} (h : p.givesUp = true) :
    p.failing = true := by
  cases p <;> simp_all [givesUp, failing]

/-- Where a post can come too late: the semaphore is destroyed between the event thread's test and
its post, or a signal other than `SIGHUP` overwrites the 1 that keeps the event thread from
posting. -/
def Calm (s : Process) : ThreadAct → Prop
  | .main .semDestroy => s.main.givesUp = true → s.listener ≠ some .post
  | .signal sig =>
    s.main.failing = true → s.listener ≠ none → s.initFlag = false → sig = .hup
  | _ => True

/-- Posts find the semaphore. -/
structure SemInv (s : Process) : Prop where
  live : s.main.waits = true → ∃ n, s.sem = .live n
  orphan : s.listener ≠ none → (∀ n, s.sem ≠ .live n) →
    s.initFlag = true ∨ s.stop = 1 ∧ s.main.failing = true
  giving : s.main.givesUp = true → s.listener = none ∨ s.initFlag = true ∨ s.stop = 1
  posting : s.listener = some .post → s.initFlag = false ∧ ∃ n, s.sem = .live n
  notLost : .posted false ∉ s.notes

section SemInv

variable {b : Boot} {s s' : Process}

private theorem SemInv.note (h : SemInv s) {n : Note} (hn : n ≠ .posted false) :
    .posted false ∉ n :: s.notes :=
  List.not_mem_cons_of_ne_of_not_mem hn.symm h.notLost

private theorem SemInv.goto (h : SemInv s) {q : MainPhase} (hwaits : q.waits = false)
    (hfail : s.main.failing = true → q.failing = true) : SemInv { s with main := q } :=
  { h with
    live := fun hq ↦ absurd (hwaits.symm.trans hq) nofun
    orphan := fun hl hsem ↦ (h.orphan hl hsem).imp id fun hs ↦ ⟨hs.1, hfail hs.2⟩
    giving := fun hq ↦ by cases q <;> first | cases hq | cases hwaits }

private theorem SemInv.listen (h : SemInv s) {p q : ListenerPhase} (hp : s.listener = some p)
    (hq : q = .post → s.initFlag = false ∧ ∃ n, s.sem = .live n) :
    SemInv { s with listener := some q } :=
  { h with
    orphan := fun _ hsem ↦ h.orphan (by rw [hp]; exact nofun) hsem
    giving := fun hg ↦ .inr ((h.giving hg).resolve_left (by rw [hp]; exact nofun))
    posting := fun hl ↦ hq (Option.some.inj hl) }

private theorem SemInv.mainGoto (h : SemInv s) (hs : StartInv b s) {q : MainPhase}
    (hgo : MainGoto b s.stop s.main q) : SemInv { s with main := q } := by
  have hfail := hgo.failing_of
  generalize hp : s.main = p at hgo hfail
  cases hgo with
  | createEventFails =>
    have hnone := hs.noListener (by rw [hp]; rfl)
    exact { h with
      live := fun _ ↦ h.live (by rw [hp]; rfl)
      orphan := fun hl ↦ absurd hnone hl
      giving := fun _ ↦ .inl hnone }
  | waitFails =>
    have hlive := h.live (by rw [hp]; rfl)
    exact { h with
      live := fun _ ↦ hlive
      orphan := fun _ hsem ↦ absurd hlive (not_exists.mpr hsem)
      giving := nofun }
  | _ => exact h.goto rfl (hp ▸ hfail)

private theorem SemInv.destroy (h : SemInv s) (hs : StartInv b s) {ret : Int}
    (hp : s.main = .semDestroy ret) (hcalm : Calm s (.main .semDestroy)) :
    SemInv { s with
      sem := .destroyed
      main := if ret < 0 then .balloonBack .failure else .createBalloon } := by
  by_cases hret : ret < 0
  · have hgives : s.main.givesUp = true := by rw [hp]; simpa [MainPhase.givesUp] using hret
    rw [if_pos hret]
    exact { h with
      live := fun hm ↦ absurd hm Bool.false_ne_true
      orphan := fun hl _ ↦ ((h.giving hgives).resolve_left hl).imp id fun hs ↦ ⟨hs, rfl⟩
      giving := fun hm ↦ absurd hm Bool.false_ne_true
      posting := fun hl ↦ absurd hl (hcalm hgives) }
  · -- The wait was successful, so the only post has been made.
    have hstarted : s.main.started = true := by
      rw [hp]
      simpa [MainPhase.started] using hret
    have hflag := hs.flagged (hs.posted (hs.started hstarted))
    rw [if_neg hret]
    exact { h with
      live := fun hm ↦ absurd hm Bool.false_ne_true
      orphan := fun _ _ ↦ .inl hflag
      giving := fun hm ↦ absurd hm Bool.false_ne_true
      posting := fun hl ↦ absurd ((h.posting hl).1.symm.trans hflag) Bool.false_ne_true }

private theorem semInv_move {a : ThreadAct} (hm : ThreadMoves b s a s') (hs : StartInv b s)
    (hcalm : Calm s a) (h : SemInv s) : SemInv s' := by
  cases hm with
  | goto p q hp hgo =>
    subst hp
    exact h.mainGoto hs hgo
  | semInit hp =>
    have hnone := hs.noListener (by rw [hp]; rfl)
    exact { h with
      live := fun _ ↦ ⟨0, rfl⟩
      orphan := fun hl ↦ absurd hnone hl
      giving := nofun
      posting := fun hl ↦ absurd (hnone.symm.trans hl) nofun }
  | createEvent hp =>
    have hlive := h.live (by rw [hp]; rfl)
    exact { h with
      live := fun _ ↦ hlive
      orphan := fun _ hsem ↦ absurd hlive (not_exists.mpr hsem)
      giving := nofun
      posting := nofun }
  | acquire n hp hsem =>
    exact { h with
      live := fun _ ↦ ⟨n, rfl⟩
      orphan := fun _ hsem ↦ absurd rfl (hsem n)
      giving := nofun
      posting := fun hl ↦ ⟨(h.posting hl).1, n, rfl⟩
      notLost := h.note nofun }
  | setStop hp =>
    have hlive := h.live (by rw [hp]; rfl)
    exact { h with
      live := fun _ ↦ hlive
      orphan := fun _ hsem ↦ absurd hlive (not_exists.mpr hsem)
      giving := fun _ ↦ .inr (.inr rfl) }
  | destroy ret hp => exact h.destroy hs hp hcalm
  | createBalloon hp => exact { h.goto (q := .head) rfl (by rw [hp]; exact nofun) with }
  | exchange hp =>
    have hg := h.goto (q := if s.change then .update else .head) (by split <;> rfl)
      (by rw [hp]; exact nofun)
    exact { hg with }
  | update query hp =>
    exact { h.goto (q := .head) rfl (by rw [hp]; exact nofun) with notLost := h.note nofun }
  | balloonBack ret lib hp =>
    exact { h.goto (q := .freeAll ret) rfl (by rw [hp]; cases ret <;> exact id) with }
  | freeAll ret hp =>
    exact { h.goto (q := .finish ret) rfl (by rw [hp]; cases ret <;> exact id) with
      notLost := h.note nofun }
  | finish ret hp =>
    have hg := h.goto (q := .leave ret) rfl (by rw [hp]; cases ret <;> exact id)
    exact { hg with
      orphan := fun hl hsem ↦ (hg.orphan hl hsem).imp id fun hs ↦ ⟨rfl, hs.2⟩
      giving := nofun }
  | listen p q hp hgo =>
    refine h.listen hp fun hq ↦ ?_
    subst hq
    cases hgo with
    | first hflag hstop =>
      refine ⟨hflag, Classical.byContradiction fun hnone ↦ ?_⟩
      have hor := h.orphan (by rw [hp]; exact nofun) (not_exists.mp hnone)
      simp [hflag, hstop] at hor
  | exit hp => exact h.goto rfl fun _ ↦ rfl
  | rebuild hp =>
    exact { h.listen (q := .collect) hp nofun with notLost := h.note nofun }
  | domain sec => exact { h with notLost := h.note nofun }
  | collected hp => exact { h.listen (q := .ready) hp nofun with notLost := h.note nofun }
  | post n hp hsem =>
    exact { h.listen (q := .loop) hp nofun with
      live := fun _ ↦ ⟨n + 1, rfl⟩
      orphan := fun _ _ ↦ .inl rfl
      giving := fun _ ↦ .inr (.inl rfl)
      posting := nofun
      notLost := h.note nofun }
  | postLost hp hsem =>
    obtain ⟨n, hn⟩ := (h.posting hp).2
    exact absurd hn (hsem n)
  | notify hp => exact { h.listen (q := .loop) hp nofun with notLost := h.note nofun }
  | balloonTest => exact { h with }
  | stats => exact { h with notLost := h.note nofun }
  | cycle => exact { h with notLost := h.note nofun }
  | kill hp => exact h.goto rfl (by rw [hp]; exact nofun)
  | signal sig hp =>
    have hkeep : s.main.failing = true → s.listener ≠ none →
        s.initFlag = true ∨ sig.number = 1 := by
      intro hfail hl
      cases hflag : s.initFlag with
      | true => exact .inl rfl
      | false =>
        rw [hcalm hfail hl hflag]
        exact .inr rfl
    refine { h with orphan := fun hl hsem ↦ ?_, giving := fun hg ↦ ?_, notLost := h.note nofun }
    · rcases h.orphan hl hsem with hflag | ⟨_, hfail⟩
      · exact .inl hflag
      · exact (hkeep hfail hl).imp id fun hone ↦ ⟨hone, hfail⟩
    · by_cases hl : s.listener = none
      · exact .inl hl
      · exact .inr (hkeep (MainPhase.failing_of_givesUp hg) hl)

end SemInv

/-- In every interleaving in which the semaphore is not destroyed between the event thread's test
and its post, and no signal other than `SIGHUP` comes after a failed wait, no post reaches a
destroyed semaphore. -/
theorem post_finds_semaphore (b : Boot) (acts : List ThreadAct)
    (h : StepsMeet (threadStep b) Calm Process.init acts) :
    .posted false ∉ (run (threadStep b) Process.init acts).notes := by
  have hinv := h.invariant (I := fun s ↦ StartInv b s ∧ SemInv s)
    ⟨startInv_init b, nofun, fun hl ↦ absurd rfl hl, nofun, nofun, nofun⟩ ?_
  · exact hinv.2.notLost
  · intro s a hcalm ⟨hs, hsem⟩
    rcases threadStep_cases b s a with he | ⟨_, hm⟩
    · rw [he]
      exact ⟨hs, hsem⟩
    · exact ⟨startInv_move hm hs, semInv_move hm hs hcalm hsem⟩

instance (s : Process) : ∀ a, Decidable (Calm s a)
  | .main .semDestroy =>
    inferInstanceAs (Decidable (s.main.givesUp = true → s.listener ≠ some .post))
  | .signal sig =>
    inferInstanceAs (Decidable (s.main.failing = true → s.listener ≠ none →
      s.initFlag = false → sig = .hup))
  | .main (.daemonSetupSignals _) => .isTrue trivial
  | .main .loadCfgFile => .isTrue trivial
  | .main (.semInit _) => .isTrue trivial
  | .main (.createEventThread _) => .isTrue trivial
  | .main (.semTimeWait _ _) => .isTrue trivial
  | .main .setStop => .isTrue trivial
  | .main (.createBalloonThread _) => .isTrue trivial
  | .main .testStop => .isTrue trivial
  | .main .exchangeChange => .isTrue trivial
  | .main (.updateAllVmInfo _) => .isTrue trivial
  | .main (.balloonBackVmMem _) => .isTrue trivial
  | .main .freeAllVM => .isTrue trivial
  | .main .setStopAtExit => .isTrue trivial
  | .main .leave => .isTrue trivial
  | .listener _ => .isTrue trivial
  | .balloon _ => .isTrue trivial

/-- The connection comes up only after the main thread has given up waiting. -/
def lateConnectRun : List ThreadAct :=
  [.main (.daemonSetupSignals true), .main .loadCfgFile, .main (.semInit true),
    .main (.createEventThread true), .listener (.registerDefaultImpl true), .listener .testStop,
    .main (.semTimeWait (some epoch) .timedOut), .main .setStop, .main .semDestroy,
    .listener .connectLibvirt, .listener (.domainEventsRegister true), .listener .freeAllVM,
    .listener .collected]

/-- The event thread then leaves the semaphore alone. -/
theorem post_finds_semaphore_late :
    .posted false ∉ (run (threadStep plainBoot) Process.init
      (lateConnectRun ++ [.listener .testReady, .listener .semPost])).notes :=
  post_finds_semaphore plainBoot _ (by decide +kernel)

-- A `SIGTERM` in that moment lets it post the semaphore that is gone.
example : (run (threadStep plainBoot) Process.init (lateConnectRun ++
    [.signal .term, .listener .testReady, .listener .semPost])).notes.head? =
      some (.posted false) := by
  simp [lateConnectRun, threadStep, mainStep, semWaitStep, listenerStep, signalStep, Process.init,
    Process.enter, Process.note, MainPhase.ended, Signal.number, plainBoot_load]

end Memlink
