import Mathlib.Data.List.Induction
import Memlink.Daemon.CommandOrder
import Memlink.Daemon.Isolation
import Memlink.Daemon.Threads

/-!
# From start to exit

What holds in every interleaving of the threads: the VM list evolves by locked sections only, so
that the commands of each record stay in order, the balloon thread comes after the first rebuild
of the list, a daemon that fails to start commands nothing, and the exit code says which of the
two it was.
-/

namespace Memlink

open Transition

/-! ### The threads refine the sections -/

/-- The section that a note is of. -/
def Note.section? : Note → Option Section
  | .ran a => some a
  | _ => none

/-- The sections run so far, oldest first. -/
def Process.sections (s : Process) : List Section := (s.notes.filterMap Note.section?).reverse

private theorem refines_enter {b : Boot} {s : Process}
    (h : s.daemon = run (step b.cfg) State.init s.sections) (a : Section) :
    (s.enter b a).daemon = run (step b.cfg) State.init (s.enter b a).sections := by
  have hsec : (s.enter b a).sections = s.sections ++ [a] := by
    simp [Process.sections, Process.enter, Note.section?]
  rw [hsec, run_concat, ← h]
  rfl

/-- In every interleaving of the threads, the VM list and the commands of the cycle sections are
those of a run of locked sections. -/
theorem daemon_eq_run (b : Boot) (acts : List ThreadAct) :
    (run (threadStep b) Process.init acts).daemon =
      run (step b.cfg) State.init (run (threadStep b) Process.init acts).sections := by
  refine process_invariant (I := fun s ↦ s.daemon = run (step b.cfg) State.init s.sections) rfl
    (fun s a s' _ hm h ↦ ?_) acts
  cases hm with
  | update query => exact refines_enter h (.updateAllVmInfo query)
  | freeAll ret => exact refines_enter h .freeAllVM
  | rebuild => exact refines_enter h .freeAllVM
  | domain a => exact refines_enter h a
  | stats reply => exact refines_enter h (.updateAllVmInfoAndMemoryStats reply)
  | cycle lib => exact refines_enter h (.balloonCycle lib)
  | _ => exact h

/-- A command at exit asks for the full memory of a record that was listed and ballooning. -/
theorem exitLog_listed (b : Boot) (acts : List ThreadAct) (c : Command)
    (hc : c ∈ (run (threadStep b) Process.init acts).exitLog) :
    ∃ before after, acts = before ++ after ∧
      ∃ v ∈ (run (threadStep b) Process.init before).daemon.list.vms,
        v.ballooning = true ∧ IsExitFor c v := by
  induction acts using List.reverseRecOn with
  | nil => cases hc
  | append_singleton acts a ih =>
    have hearlier : c ∈ (run (threadStep b) Process.init acts).exitLog →
        ∃ before after, acts ++ [a] = before ++ after ∧
          ∃ v ∈ (run (threadStep b) Process.init before).daemon.list.vms,
            v.ballooning = true ∧ IsExitFor c v := by
      intro hold
      obtain ⟨before, after, rfl, hv⟩ := ih hold
      exact ⟨before, after ++ [a], List.append_assoc before after [a], hv⟩
    rw [run_concat] at hc
    rcases threadStep_cases b (run (threadStep b) Process.init acts) a with he | ⟨_, hm⟩
    · exact hearlier (he ▸ hc)
    · generalize threadStep b (run (threadStep b) Process.init acts) a = s' at hc hm
      cases hm with
      | balloonBack ret lib _ _ =>
        obtain ⟨sent, he, hown, _⟩ := balloonBackVmMem_sends lib
          (run (threadStep b) Process.init acts).daemon.list.vms
          (run (threadStep b) Process.init acts).exitLog
        dsimp only at hc
        rw [he] at hc
        rcases List.mem_append.mp hc with hnew | hold
        · exact ⟨acts, [a], rfl, hown c hnew⟩
        · exact hearlier hold
      | _ => exact hearlier hc

/-- In every interleaving of the threads, from the start to the exit, the list is well formed with
one reference to each record, the commands of the cycle sections come in the order of the protocol
for each record, with the flags of a listed record in the phase reached, and each command at exit
asks for the full memory of a record that was listed and ballooning. -/
theorem threads_keep_order (b : Boot) (acts : List ThreadAct) :
    (run (threadStep b) Process.init acts).daemon.Wf ∧
    (run (threadStep b) Process.init acts).daemon.list.Unshared ∧
    (∀ addr, ∃ g,
      phaseOf (sentTo addr (run (threadStep b) Process.init acts).daemon.log) = some g ∧
        ∀ v ∈ (run (threadStep b) Process.init acts).daemon.list.vms,
          v.addr = addr → Fits v g) ∧
    ∀ c ∈ (run (threadStep b) Process.init acts).exitLog,
      ∃ before after, acts = before ++ after ∧
        ∃ v ∈ (run (threadStep b) Process.init before).daemon.list.vms,
          v.ballooning = true ∧ IsExitFor c v := by
  have hexit := exitLog_listed b acts
  have hrun := daemon_eq_run b acts
  have hreach : Reachable (step b.cfg) State.init (run (threadStep b) Process.init acts).daemon :=
    ⟨_, hrun.symm⟩
  refine ⟨wf_of_reachable hreach, unshared_of_reachable hreach, fun addr ↦ ?_, hexit⟩
  rw [hrun]
  exact phase_of_run b.cfg addr _

/-! ### The order of a start -/

/-- The event thread does not exist yet. -/
def MainPhase.early : MainPhase → Bool
  | .setupSignals => true
  | .loadCfg => true
  | .semInit => true
  | .createEvent => true
  | _ => false

/-- `CreateEventThread` has succeeded. -/
def MainPhase.started : MainPhase → Bool
  | .semDestroy ret => decide (0 ≤ ret)
  | .createBalloon => true
  | .head => true
  | .exchange => true
  | .update => true
  | .balloonBack .success => true
  | .freeAll .success => true
  | .finish .success => true
  | .leave .success => true
  | .exited .success => true
  | _ => false

/-- `CoreInit` has succeeded. -/
def MainPhase.running : MainPhase → Bool
  | .semDestroy _ => false
  | .createBalloon => false
  | p => p.started

/-- The list has been rebuilt in this connection, and nobody has been told. -/
def ListenerPhase.rebuilt : ListenerPhase → Bool
  | .ready => true
  | .post => true
  | .notify => true
  | _ => false

/-- The main thread does not return to where there is no event thread. -/
theorem MainGoto.early_of {b : Boot} {stop : Int} {p q : MainPhase} (h : MainGoto b stop p q)
    (hq : q.early = true) : p.early = true := by
  cases h <;> first | rfl | cases hq

/-- No move of the main thread gets past `CreateEventThread`. -/
theorem MainGoto.started_of {b : Boot} {stop : Int} {p q : MainPhase} (h : MainGoto b stop p q)
    (hq : q.started = true) : p.started = true := by
  cases h with
  | backOff ret => cases ret <;> simp_all [MainPhase.started]
  | leave ret => cases ret <;> simp_all [MainPhase.started]
  | _ => first | rfl | cases hq

/-- No move of the main thread takes the success of `CoreInit` back. -/
theorem MainGoto.running_of {b : Boot} {stop : Int} {p q : MainPhase} (h : MainGoto b stop p q)
    (hp : p.running = true) : q.running = true := by
  cases h with
  | backOff ret => cases ret <;> simp_all [MainPhase.running, MainPhase.started]
  | leave ret => cases ret <;> simp_all [MainPhase.running, MainPhase.started]
  | _ => first | rfl | cases hp

/-- With the balloon enabled no move of the main thread gets past `CoreInit`. -/
theorem MainGoto.created_of {b : Boot} {stop : Int} {p q : MainPhase} (h : MainGoto b stop p q)
    (hq : q.running = true) (hon : b.settings.balloonEnable = 1) : p.running = true := by
  cases h with
  | balloonOff hoff => exact absurd hon hoff
  | backOff ret hoff => exact absurd hon hoff
  | leave ret => cases ret <;> simp_all [MainPhase.running, MainPhase.started]
  | _ => first | rfl | cases hq

/-- What must have happened before: a balloon section needs the balloon enabled and the
semaphore acquired, that needs a post, a post needs the VMs collected, and that comes after the
old list was freed. -/
def Note.Preceded (b : Boot) (older : List Note) : Note → Prop
  | .ran a => a.ofBalloonThread = true → b.settings.balloonEnable = 1 ∧ .acquired ∈ older
  | .collected => .ran .freeAllVM ∈ older
  | .posted _ => .collected ∈ older
  | .acquired => .posted true ∈ older
  | .notified => .collected ∈ older
  | .signalled _ => True

/-- The order in which the threads come to life. -/
structure StartInv (b : Boot) (s : Process) : Prop where
  noListener : s.main.early = true → s.listener = none
  fresh : s.listener = none ∨ s.listener = some .registerImpl → s.initFlag = false
  freed : s.listener = some .collect → .ran .freeAllVM ∈ s.notes
  rebuilt : ∀ p, s.listener = some p → p.rebuilt = true → .collected ∈ s.notes
  counted : ∀ n, s.sem = .live (n + 1) → .posted true ∈ s.notes
  flagged : .posted true ∈ s.notes → s.initFlag = true
  posted : .acquired ∈ s.notes → .posted true ∈ s.notes
  started : s.main.started = true → .acquired ∈ s.notes
  balloon : ∀ p, s.balloon = some p → s.main.running = true ∧ b.settings.balloonEnable = 1
  created : s.main.running = true → b.settings.balloonEnable = 1 → s.balloon ≠ none
  preceded : ∀ newer n older, s.notes = newer ++ n :: older → n.Preceded b older

section StartInv

variable {b : Boot} {s : Process}

private theorem StartInv.goto (h : StartInv b s) {q : MainPhase}
    (hearly : q.early = true → s.main.early = true)
    (hstarted : q.started = true → .acquired ∈ s.notes)
    (hrun : s.main.running = true → q.running = true)
    (hcreated : q.running = true → b.settings.balloonEnable = 1 → s.main.running = true) :
    StartInv b { s with main := q } :=
  { h with
    noListener := fun hq ↦ h.noListener (hearly hq)
    started := hstarted
    balloon := fun p hp ↦ ⟨hrun (h.balloon p hp).1, (h.balloon p hp).2⟩
    created := fun hq hon ↦ h.created (hcreated hq hon) hon }

private theorem StartInv.leaving (h : StartInv b s) {q : MainPhase} (hearly : q.early = false)
    (hsame : q.started = s.main.started ∧ q.running = s.main.running) :
    StartInv b { s with main := q } :=
  h.goto (fun hq ↦ absurd (hearly.symm.trans hq) nofun)
    (fun hq ↦ h.started (hsame.1.symm.trans hq)) (fun hr ↦ hsame.2.trans hr)
    (fun hq _ ↦ hsame.2.symm.trans hq)

private theorem StartInv.note (h : StartInv b s) {n : Note} (hn : n.Preceded b s.notes)
    (hpost : n ≠ .posted true) (hacq : n ≠ .acquired) : StartInv b (s.note n) where
  noListener := h.noListener
  fresh := h.fresh
  freed := fun hp ↦ List.mem_cons_of_mem n (h.freed hp)
  rebuilt := fun p hp hr ↦ List.mem_cons_of_mem n (h.rebuilt p hp hr)
  counted := fun k hk ↦ List.mem_cons_of_mem n (h.counted k hk)
  flagged := fun hm ↦ h.flagged ((List.mem_cons.mp hm).resolve_left hpost.symm)
  posted := fun hm ↦
    List.mem_cons_of_mem n (h.posted ((List.mem_cons.mp hm).resolve_left hacq.symm))
  started := fun hs ↦ List.mem_cons_of_mem n (h.started hs)
  balloon := h.balloon
  created := h.created
  preceded := forall_event_cons h.preceded hn

private theorem StartInv.enter (h : StartInv b s) {a : Section}
    (ha : a.ofBalloonThread = true → b.settings.balloonEnable = 1 ∧ .acquired ∈ s.notes) :
    StartInv b (s.enter b a) :=
  { h.note (n := .ran a) ha nofun nofun with }

private theorem StartInv.listen (h : StartInv b s) {p q : ListenerPhase}
    (hp : s.listener = some p) (hq : q ≠ .registerImpl)
    (hf : q = .collect → .ran .freeAllVM ∈ s.notes) (hr : q.rebuilt = true → .collected ∈ s.notes) :
    StartInv b { s with listener := some q } :=
  { h with
    noListener := fun hm ↦ absurd ((h.noListener hm).symm.trans hp) nofun
    fresh := fun hl ↦ hl.elim nofun fun he ↦ absurd (Option.some.inj he) hq
    freed := fun hl ↦ hf (Option.some.inj hl)
    rebuilt := fun _ hr' hreb ↦ hr (Option.some.inj hr' ▸ hreb) }

private theorem StartInv.acquired (h : StartInv b s) {p : BalloonPc} (hp : s.balloon = some p) :
    b.settings.balloonEnable = 1 ∧ .acquired ∈ s.notes := by
  obtain ⟨hrun, hon⟩ := h.balloon p hp
  refine ⟨hon, h.started ?_⟩
  cases hm : s.main <;> simp_all [MainPhase.running, MainPhase.started]

/-- Before its first call the event thread has posted nothing, so nobody relies on it yet. -/
theorem StartInv.not_acquired (h : StartInv b s) (hl : s.listener = some .registerImpl) :
    .acquired ∉ s.notes := by
  intro hacq
  have hflag := h.flagged (h.posted hacq)
  exact absurd ((h.fresh (.inr hl)).symm.trans hflag) nofun

/-- Every move keeps the order of a start. -/
theorem startInv_move {a : ThreadAct} {s' : Process} (hm : ThreadMoves b s a s')
    (h : StartInv b s) : StartInv b s' := by
  cases hm with
  | goto p q hp hgo =>
    subst hp
    exact h.goto hgo.early_of (fun hq ↦ h.started (hgo.started_of hq)) hgo.running_of
      hgo.created_of
  | semInit hp =>
    have hg := h.goto (q := .createEvent) (fun _ ↦ by rw [hp]; rfl) nofun
      (by rw [hp]; exact nofun) nofun
    exact { hg with counted := nofun }
  | createEvent hp =>
    have hnone := h.noListener (by rw [hp]; rfl)
    have hg := h.goto (q := .semWait) nofun nofun (by rw [hp]; exact nofun) nofun
    exact { hg with
      noListener := nofun
      fresh := fun _ ↦ h.fresh (.inl hnone)
      freed := nofun
      rebuilt := fun p hr hreb ↦ by
        obtain rfl := Option.some.inj hr
        cases hreb }
  | acquire n hp hsem =>
    have hpost := h.counted n hsem
    exact {
      noListener := nofun
      fresh := h.fresh
      freed := fun hl ↦ List.mem_cons_of_mem _ (h.freed hl)
      rebuilt := fun p hl hr ↦ List.mem_cons_of_mem _ (h.rebuilt p hl hr)
      counted := fun k _ ↦ List.mem_cons_of_mem _ hpost
      flagged := fun _ ↦ h.flagged hpost
      posted := fun _ ↦ List.mem_cons_of_mem _ hpost
      started := fun _ ↦ List.mem_cons_self
      balloon := fun p hb ↦ absurd (h.balloon p hb).1 (by rw [hp]; exact nofun)
      created := nofun
      preceded := forall_event_cons h.preceded hpost }
  | setStop hp =>
    exact { h.goto (q := .semDestroy (-1)) nofun nofun (by rw [hp]; exact nofun) nofun with }
  | destroy ret hp =>
    have hg := h.goto (q := if ret < 0 then .balloonBack .failure else .createBalloon)
      (by split <;> exact nofun) ?_ (by rw [hp]; exact nofun) (by split <;> exact nofun)
    · exact { hg with counted := nofun }
    · split
      · exact nofun
      · next hret => exact fun _ ↦ h.started (by rw [hp]; simpa [MainPhase.started] using hret)
  | createBalloon hp hon =>
    have hacq := h.started (by rw [hp]; rfl)
    exact { h with
      noListener := nofun
      started := fun _ ↦ hacq
      balloon := fun _ _ ↦ ⟨rfl, hon⟩
      created := fun _ _ ↦ nofun }
  | exchange hp =>
    have hacq := h.started (by rw [hp]; rfl)
    exact { h.goto (q := if s.change then .update else .head) (by split <;> exact nofun)
      (fun _ ↦ hacq) (fun _ ↦ by split <;> rfl) (fun _ _ ↦ by rw [hp]; rfl) with }
  | update query hp =>
    have hacq := h.started (by rw [hp]; rfl)
    have hg := h.goto (q := .head) nofun (fun _ ↦ hacq) (fun _ ↦ rfl) (fun _ _ ↦ by rw [hp]; rfl)
    exact { hg.enter (a := .updateAllVmInfo query) nofun with }
  | balloonBack ret lib hp hon =>
    have hg := h.leaving (q := .freeAll ret) rfl (by rw [hp]; cases ret <;> exact ⟨rfl, rfl⟩)
    exact { hg with }
  | freeAll ret hp =>
    have hg := h.leaving (q := .finish ret) rfl (by rw [hp]; cases ret <;> exact ⟨rfl, rfl⟩)
    exact { hg.enter (a := .freeAllVM) nofun with }
  | finish ret hp =>
    have hg := h.leaving (q := .leave ret) rfl (by rw [hp]; cases ret <;> exact ⟨rfl, rfl⟩)
    exact { hg with }
  | listen p q hp hgo =>
    refine h.listen hp (by cases hgo <;> exact nofun) (by cases hgo <;> exact nofun)
      fun hq ↦ h.rebuilt p hp ?_
    cases hgo <;> first | rfl | cases hq
  | exit hp =>
    exact { h with
      noListener := nofun
      started := nofun
      balloon := fun p hb ↦ absurd (h.acquired hb).2 (h.not_acquired hp)
      created := nofun }
  | rebuild hp =>
    have he := h.enter (a := .freeAllVM) nofun
    exact { he.listen (q := .collect) hp nofun (fun _ ↦ List.mem_cons_self) nofun with }
  | domain a _ ha => exact h.enter (by cases ha <;> exact nofun)
  | collected hp =>
    have hn := h.note (n := .collected) (h.freed hp) nofun nofun
    exact { hn.listen (q := .ready) hp nofun nofun (fun _ ↦ List.mem_cons_self) with }
  | post n hp _ =>
    have hreb := h.rebuilt .post hp rfl
    exact {
      noListener := fun hm ↦ absurd ((h.noListener hm).symm.trans hp) nofun
      fresh := fun hl ↦ hl.elim nofun nofun
      freed := nofun
      rebuilt := fun r hr hr' ↦ by
        obtain rfl := Option.some.inj hr
        cases hr'
      counted := fun _ _ ↦ List.mem_cons_self
      flagged := fun _ ↦ rfl
      posted := fun _ ↦ List.mem_cons_self
      started := fun hs ↦ List.mem_cons_of_mem _ (h.started hs)
      balloon := h.balloon
      created := h.created
      preceded := forall_event_cons h.preceded hreb }
  | postLost hp _ =>
    have hn := h.note (n := .posted false) (h.rebuilt .post hp rfl) nofun nofun
    exact { hn.listen (q := .loop) hp nofun nofun nofun with
      fresh := fun hl ↦ hl.elim nofun nofun
      flagged := fun _ ↦ rfl }
  | notify hp =>
    have hn := h.note (n := .notified) (h.rebuilt .notify hp rfl) nofun nofun
    exact { hn.listen (q := .loop) hp nofun nofun nofun with }
  | balloonTest hp =>
    exact { h with
      balloon := fun _ _ ↦ h.balloon _ hp
      created := fun _ _ ↦ nofun }
  | stats reply hp =>
    have he := h.enter (a := .updateAllVmInfoAndMemoryStats reply) fun _ ↦ h.acquired hp
    exact { he with
      balloon := fun _ _ ↦ h.balloon _ hp
      created := fun _ _ ↦ nofun }
  | cycle lib hp =>
    have he := h.enter (a := .balloonCycle lib) fun _ ↦ h.acquired hp
    exact { he with
      balloon := fun _ _ ↦ h.balloon _ hp
      created := fun _ _ ↦ nofun }
  | kill hp => exact h.goto nofun nofun (by rw [hp]; exact nofun) nofun
  | signal sig hp => exact { h.note (n := .signalled sig) trivial nofun nofun with }

end StartInv

/-- The order of a start at its beginning. -/
theorem startInv_init (b : Boot) : StartInv b Process.init := by
  refine ⟨fun _ ↦ rfl, fun _ ↦ rfl, nofun, nofun, nofun, nofun, nofun, nofun, nofun, nofun, ?_⟩
  intro newer n older he
  cases newer <;> cases he

/-- Every run keeps the order of a start. -/
theorem startInv_run (b : Boot) (acts : List ThreadAct) :
    StartInv b (run (threadStep b) Process.init acts) :=
  process_invariant (startInv_init b) (fun _ _ _ _ hm h ↦ startInv_move hm h) acts

/-- In every interleaving, a section of the balloon thread comes after a rebuild of the list,
`FreeAllVM` and the whole of `CollectAddCurrentVMs`, the post of the event thread for it and the
end of the main thread's wait, in this order, and only with the balloon enabled. -/
theorem balloon_section_preceded (b : Boot) (acts : List ThreadAct) (a : Section)
    (ha : a.ofBalloonThread = true) (newer older : List Note)
    (h : (run (threadStep b) Process.init acts).notes = newer ++ .ran a :: older) :
    b.settings.balloonEnable = 1 ∧
      ∃ n₁ n₂ n₃ n₄ n₅, older = n₁ ++ .acquired :: (n₂ ++ .posted true ::
        (n₃ ++ .collected :: (n₄ ++ .ran .freeAllVM :: n₅))) := by
  have hinv := (startInv_run b acts).preceded
  obtain ⟨hon, hacq⟩ := hinv newer (.ran a) older h ha
  obtain ⟨n₁, o₁, rfl⟩ := List.append_of_mem hacq
  have hpost := hinv (newer ++ .ran a :: n₁) .acquired o₁ (by rw [h]; simp)
  obtain ⟨n₂, o₂, rfl⟩ := List.append_of_mem hpost
  have hcoll := hinv (newer ++ .ran a :: n₁ ++ .acquired :: n₂) (.posted true) o₂
    (by rw [h]; simp)
  obtain ⟨n₃, o₃, rfl⟩ := List.append_of_mem hcoll
  have hfree := hinv (newer ++ .ran a :: n₁ ++ .acquired :: n₂ ++ .posted true :: n₃) .collected o₃
    (by rw [h]; simp)
  obtain ⟨n₄, o₄, rfl⟩ := List.append_of_mem hfree
  exact ⟨hon, n₁, n₂, n₃, n₄, o₄, rfl⟩

/-- A daemon that finds an empty configuration file. -/
def plainBoot : Boot := ⟨⟨some [], true, true⟩, false⟩

/-- It runs with the initial settings. -/
theorem plainBoot_load : plainBoot.loadRet = 0 ∧ plainBoot.settings.balloonEnable = 1 := by
  decide +kernel

/-- The beginning of time. -/
def epoch : Timeval := ⟨0, 0, by decide⟩

/-- A start in which the event thread finds the restored guest, and the first iteration of the
balloon thread. -/
def startRun : List ThreadAct :=
  [.main (.daemonSetupSignals true), .main .loadCfgFile, .main (.semInit true),
    .main (.createEventThread true), .listener (.registerDefaultImpl true), .listener .testStop,
    .listener .connectLibvirt, .listener (.domainEventsRegister true), .listener .freeAllVM,
    .listener (.findAddVMToList 1 true (some restoredProbe)), .listener .collected,
    .listener .testReady, .listener .semPost,
    .main (.semTimeWait (some epoch) .acquired), .main .semDestroy,
    .main (.createBalloonThread true), .balloon .testStop, .balloon (.stats restoredStats),
    .balloon (.cycle (fun _ ↦ true))]

private theorem startRun_notes : (run (threadStep plainBoot) Process.init startRun).notes =
    [.ran (.balloonCycle (fun _ ↦ true)), .ran (.updateAllVmInfoAndMemoryStats restoredStats),
      .acquired, .posted true, .collected,
      .ran (.findAddVMToList 1 true (some restoredProbe)), .ran .freeAllVM] := by
  simp [startRun, threadStep, mainStep, semWaitStep, listenerStep, balloonStep, Process.init,
    Process.enter, Process.note, MainPhase.ended, plainBoot_load]

/-- The first statistics section of that start comes last. -/
theorem balloon_section_preceded_start : plainBoot.settings.balloonEnable = 1 ∧
    ∃ n₁ n₂ n₃ n₄ n₅, [.acquired, .posted true, .collected,
        .ran (.findAddVMToList 1 true (some restoredProbe)), .ran .freeAllVM] =
      n₁ ++ Note.acquired :: (n₂ ++ .posted true ::
        (n₃ ++ .collected :: (n₄ ++ .ran .freeAllVM :: n₅))) :=
  balloon_section_preceded plainBoot startRun (.updateAllVmInfoAndMemoryStats restoredStats) rfl
    [.ran (.balloonCycle (fun _ ↦ true))] _ startRun_notes

/-! ### Who may command -/

/-- Nothing was sent and no record is ballooning. -/
def State.Idle (s : State) : Prop := s.log = [] ∧ ∀ v ∈ s.list.vms, v.ballooning = false

/-- Only the cycle section ends idleness. -/
theorem State.Idle.step {cfg : BalloonConfig} {s : State} (h : s.Idle) (hwf : s.Wf) {a : Section}
    (ha : ∀ lib, a ≠ .balloonCycle lib) : (step cfg s a).Idle := by
  refine ⟨(step_log_eq ha).trans h.1, fun v' hv' ↦ ?_⟩
  rcases @step_tracked cfg _ hwf a _ hv' with ⟨hnew, _⟩ | ⟨v, hv, _, act, hp, he⟩
  · obtain ⟨addr, domid, name, win, r, rfl⟩ := hnew
    rfl
  · have hvm : v' = ((s.tracked v).step cfg act).vm := congrArg Tracked.vm he
    rw [hvm]
    cases hp with
    | cycle lib n => exact absurd rfl (ha lib)
    | _ => exact h.2 v hv

/-- At exit nothing is sent for records that are not ballooning. -/
theorem balloonBackVmMem_of_not_ballooning (lib : Libvirt) {vms : List VirtualMachineInfo}
    (h : ∀ v ∈ vms, v.ballooning = false) (log : Log) : balloonBackVmMem lib vms log = log := by
  unfold balloonBackVmMem
  induction vms with
  | nil => rfl
  | cons v vms ih =>
    rw [List.foldl_cons, h v List.mem_cons_self]
    exact ih fun w hw ↦ h w (List.mem_cons_of_mem v hw)

/-- Without a balloon thread the daemon is idle. -/
structure QuietInv (s : Process) : Prop where
  wf : s.daemon.Wf
  idle : s.balloon = none → s.daemon.Idle ∧ s.exitLog = []

private theorem QuietInv.enter {b : Boot} {s : Process} (h : QuietInv s) {a : Section}
    (ha : a.ofBalloonThread = false) : QuietInv (s.enter b a) := by
  refine ⟨h.wf.step b.cfg a, fun hb ↦ ⟨(h.idle hb).1.step h.wf ?_, (h.idle hb).2⟩⟩
  rintro lib rfl
  cases ha

private theorem quietInv_move {b : Boot} {s s' : Process} {a : ThreadAct}
    (hm : ThreadMoves b s a s') (h : QuietInv s) : QuietInv s' := by
  cases hm with
  | update query => exact { h.enter (b := b) (a := .updateAllVmInfo query) rfl with }
  | freeAll ret => exact { h.enter (b := b) (a := .freeAllVM) rfl with }
  | rebuild => exact { h.enter (b := b) (a := .freeAllVM) rfl with }
  | domain a _ ha => exact h.enter (by cases ha <;> rfl)
  | balloonBack ret lib _ _ =>
    refine ⟨h.wf, fun hb ↦ ?_⟩
    obtain ⟨hidle, hlog⟩ := h.idle hb
    exact ⟨hidle, (balloonBackVmMem_of_not_ballooning lib hidle.2 s.exitLog).trans hlog⟩
  | createBalloon => exact ⟨h.wf, nofun⟩
  | balloonTest => exact ⟨h.wf, nofun⟩
  | stats reply => exact ⟨h.wf.step b.cfg (.updateAllVmInfoAndMemoryStats reply), nofun⟩
  | cycle lib => exact ⟨h.wf.step b.cfg (.balloonCycle lib), nofun⟩
  | _ => exact { h with }

/-- In every run the daemon is idle as long as there is no balloon thread. -/
theorem quietInv_run (b : Boot) (acts : List ThreadAct) :
    QuietInv (run (threadStep b) Process.init acts) :=
  process_invariant
    ⟨State.wf_init, fun _ ↦ ⟨⟨rfl, fun _ hv ↦ absurd hv List.not_mem_nil⟩, rfl⟩⟩
    (fun _ _ _ _ hm h ↦ quietInv_move hm h) acts

/-- In every interleaving, a VM is sent a command, also at exit, only if the balloon is enabled
and the event thread has built the list and was waited for. -/
theorem command_needs_start (b : Boot) (acts : List ThreadAct) (c : Command)
    (hc : c ∈ (run (threadStep b) Process.init acts).daemon.log ∨
      c ∈ (run (threadStep b) Process.init acts).exitLog) :
    b.settings.balloonEnable = 1 ∧
      .acquired ∈ (run (threadStep b) Process.init acts).notes := by
  have hstart := startInv_run b acts
  have hquiet := quietInv_run b acts
  generalize run (threadStep b) Process.init acts = s at hc hstart hquiet ⊢
  cases hb : s.balloon with
  | some p => exact hstart.acquired hb
  | none =>
    obtain ⟨hidle, hexit⟩ := hquiet.idle hb
    rw [hidle.1, hexit] at hc
    rcases hc with hc | hc <;> cases hc

/-- The restored guest gets its command in that start. -/
theorem command_needs_start_restored :
    (∃ c, c ∈ (run (threadStep plainBoot) Process.init startRun).daemon.log) ∧
      .acquired ∈ (run (threadStep plainBoot) Process.init startRun).notes := by
  have hsent : (run (threadStep plainBoot) Process.init startRun).daemon.log.isEmpty = false := by
    decide +kernel
  obtain ⟨c, hc⟩ := List.exists_mem_of_ne_nil _ (List.isEmpty_eq_false_iff.mp hsent)
  exact ⟨⟨c, hc⟩, (command_needs_start plainBoot startRun c (.inl hc)).2⟩

/-! ### The exit code -/

/-- `main` is on its way to `EXIT_FAILURE` from `CreateEventThread` on. -/
def MainPhase.failing : MainPhase → Bool
  | .semDestroy ret => decide (ret < 0)
  | .balloonBack .failure => true
  | .freeAll .failure => true
  | .finish .failure => true
  | .leave .failure => true
  | .exited .failure => true
  | _ => false

/-- `main` has left its loop. -/
def MainPhase.succeeding : MainPhase → Bool
  | .balloonBack .success => true
  | .freeAll .success => true
  | .finish .success => true
  | .leave .success => true
  | .exited .success => true
  | _ => false

/-- Some signal has arrived. -/
def Process.Signalled (s : Process) : Prop := ∃ sig, .signalled sig ∈ s.notes

/-- The stop flag is set by a signal or by a failing start, and the loop ends by a signal. -/
structure StopInv (s : Process) : Prop where
  stop : s.stop ≠ 0 → s.Signalled ∨ s.main.failing = true
  success : s.main.succeeding = true → s.Signalled

/-- A failure is not taken back. -/
theorem MainGoto.failing_of {b : Boot} {stop : Int} {p q : MainPhase} (h : MainGoto b stop p q)
    (hp : p.failing = true) : q.failing = true := by
  cases h with
  | backOff ret => cases ret <;> simp_all [MainPhase.failing]
  | leave ret => cases ret <;> simp_all [MainPhase.failing]
  | _ => first | rfl | cases hp

/-- The loop ends only with the stop flag set. -/
theorem MainGoto.succeeding_of {b : Boot} {stop : Int} {p q : MainPhase} (h : MainGoto b stop p q)
    (hq : q.succeeding = true) : p.succeeding = true ∨ p = .head ∧ stop ≠ 0 := by
  cases h with
  | stopped hne => exact .inr ⟨rfl, hne⟩
  | backOff ret => cases ret <;> simp_all [MainPhase.succeeding]
  | leave ret => cases ret <;> simp_all [MainPhase.succeeding]
  | _ => cases hq

section StopInv

variable {b : Boot} {s s' : Process}

private theorem StopInv.of_notes (h : StopInv s) {n : List Note} (hn : s'.notes = n ++ s.notes)
    (hstop : s'.stop = s.stop) (hfail : s.main.failing = true → s'.main.failing = true)
    (hsucc : s'.main.succeeding = true → s.main.succeeding = true) : StopInv s' := by
  have hsig : s.Signalled → s'.Signalled := by
    rintro ⟨sig, hmem⟩
    exact ⟨sig, by rw [hn]; exact List.mem_append_right n hmem⟩
  refine ⟨fun hne ↦ ?_, fun hs ↦ hsig (h.success (hsucc hs))⟩
  exact (h.stop (hstop ▸ hne)).imp hsig hfail

private theorem stopInv_move {a : ThreadAct} (hm : ThreadMoves b s a s') (h : StopInv s) :
    StopInv s' := by
  cases hm with
  | goto p q hp hgo =>
    subst hp
    refine ⟨fun hne ↦ (h.stop hne).imp id hgo.failing_of, fun hq ↦ ?_⟩
    rcases hgo.succeeding_of hq with hs | ⟨hhead, hne⟩
    · exact h.success hs
    · refine (h.stop hne).resolve_right ?_
      rw [hhead]
      exact nofun
  | setStop hp => exact ⟨fun _ ↦ .inr rfl, nofun⟩
  | finish ret hp =>
    cases ret with
    | failure => exact ⟨fun _ ↦ .inr rfl, nofun⟩
    | success =>
      have hsig := h.success (by rw [hp]; rfl)
      exact ⟨fun _ ↦ .inl hsig, fun _ ↦ hsig⟩
  | signal sig hp =>
    have hsig : Process.Signalled { s.note (.signalled sig) with stop := sig.number } :=
      ⟨sig, List.mem_cons_self⟩
    exact ⟨fun _ ↦ .inl hsig, fun _ ↦ hsig⟩
  | exit hp => exact ⟨fun _ ↦ .inr rfl, nofun⟩
  | semInit hp => exact h.of_notes (n := []) rfl rfl (by rw [hp]; exact nofun) nofun
  | createEvent hp => exact h.of_notes (n := []) rfl rfl (by rw [hp]; exact nofun) nofun
  | acquire n hp => exact h.of_notes (n := [.acquired]) rfl rfl (by rw [hp]; exact nofun) nofun
  | destroy ret hp =>
    refine h.of_notes (n := []) rfl rfl ?_ ?_
    · rw [hp]
      intro hret
      simp only [MainPhase.failing, decide_eq_true_eq] at hret
      simp [hret, MainPhase.failing]
    · dsimp only
      split <;> exact nofun
  | createBalloon hp => exact h.of_notes (n := []) rfl rfl (by rw [hp]; exact nofun) nofun
  | exchange hp =>
    refine h.of_notes (n := []) rfl rfl (by rw [hp]; exact nofun) ?_
    dsimp only
    split <;> exact nofun
  | update query hp =>
    exact h.of_notes (n := [.ran (.updateAllVmInfo query)]) rfl rfl (by rw [hp]; exact nofun) nofun
  | balloonBack ret lib hp =>
    refine h.of_notes (n := []) rfl rfl ?_ ?_ <;> rw [hp] <;> cases ret <;> exact id
  | freeAll ret hp =>
    refine h.of_notes (n := [.ran .freeAllVM]) rfl rfl ?_ ?_ <;> rw [hp] <;> cases ret <;> exact id
  | kill hp => exact h.of_notes (n := []) rfl rfl (by rw [hp]; exact nofun) nofun
  | listen => exact { h with }
  | balloonTest => exact { h with }
  | rebuild => exact h.of_notes (n := [.ran .freeAllVM]) rfl rfl id id
  | domain a => exact h.of_notes (n := [.ran a]) rfl rfl id id
  | collected => exact h.of_notes (n := [.collected]) rfl rfl id id
  | post => exact h.of_notes (n := [.posted true]) rfl rfl id id
  | postLost => exact h.of_notes (n := [.posted false]) rfl rfl id id
  | notify => exact h.of_notes (n := [.notified]) rfl rfl id id
  | stats reply =>
    exact h.of_notes (n := [.ran (.updateAllVmInfoAndMemoryStats reply)]) rfl rfl id id
  | cycle lib => exact h.of_notes (n := [.ran (.balloonCycle lib)]) rfl rfl id id

end StopInv

/-- In every interleaving, a daemon that exits with `EXIT_SUCCESS` was started completely, with
the event thread waited for and, if the balloon is enabled, the balloon thread created, and
stopped by a signal; one that exits with `EXIT_FAILURE` has sent no command to any VM. -/
theorem exit_code_tells (b : Boot) (acts : List ThreadAct) :
    ((run (threadStep b) Process.init acts).main = .exited .success →
      .acquired ∈ (run (threadStep b) Process.init acts).notes ∧
        (b.settings.balloonEnable = 1 →
          (run (threadStep b) Process.init acts).balloon ≠ none) ∧
        (run (threadStep b) Process.init acts).Signalled) ∧
    ((run (threadStep b) Process.init acts).main = .exited .failure →
      (run (threadStep b) Process.init acts).daemon.log = [] ∧
        (run (threadStep b) Process.init acts).exitLog = []) := by
  have hstart := startInv_run b acts
  have hquiet := quietInv_run b acts
  have hstop : StopInv (run (threadStep b) Process.init acts) :=
    process_invariant ⟨fun h ↦ absurd rfl h, nofun⟩ (fun _ _ _ _ hm h ↦ stopInv_move hm h) acts
  generalize run (threadStep b) Process.init acts = s at hstart hquiet hstop ⊢
  refine ⟨fun hex ↦ ⟨hstart.started (by rw [hex]; rfl), hstart.created (by rw [hex]; rfl),
    hstop.success (by rw [hex]; rfl)⟩, fun hex ↦ ?_⟩
  cases hb : s.balloon with
  | none => exact ⟨(hquiet.idle hb).1.1, (hquiet.idle hb).2⟩
  | some p =>
    have hrun := (hstart.balloon p hb).1
    rw [hex] at hrun
    cases hrun

end Memlink
