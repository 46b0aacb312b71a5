import Memlink.Daemon.Episode

/-!
# Exit

`BalloonBackVmMem` (`memlink_core.c:341–364`) and `CoreExit` (`memlink_core.c:366–374`): what
the daemon still sends when it stops. The balloon thread is detached; it tests the stop flag
at its loop head only, so the sections of an iteration already entered run on beside the two
sections of `CoreExit`.
-/

namespace Memlink

open Transition

/-- `SET_BALLOON_MAX`. -/
def setBalloonMax : Nat := 10

/-- The retry loop of `BalloonBackVmMem`, with the number of attempts left. -/
def balloonBackRetry (lib : Libvirt) (v : VirtualMachineInfo) : Nat → Log → Log
  | 0, log => log
  | n + 1, log =>
    let (ret, log) := setVmBalloonTarget lib .exit v (fullTarget v) log
    if ret = 0 then log else balloonBackRetry lib v n log

/-- `BalloonBackVmMem`. The records are not written. -/
def balloonBackVmMem (lib : Libvirt) (vms : List VirtualMachineInfo) (log : Log) : Log :=
  vms.foldl
    (fun log v ↦ if v.ballooning then balloonBackRetry lib v setBalloonMax log else log) log

/-- The exit command for a record: its full memory. -/
def IsExitFor (c : Command) (v : VirtualMachineInfo) : Prop :=
  c.vm = v ∧ c.site = .exit ∧ c.target = fullTarget v

private theorem balloonBackRetry_spec (lib : Libvirt) (v : VirtualMachineInfo) (n : Nat)
    (log : Log) :
    ∃ sent, balloonBackRetry lib v n log = sent ++ log ∧ (∀ c ∈ sent, IsExitFor c v) ∧
      (0 < n → ∃ c ∈ sent, IsExitFor c v) := by
  induction n generalizing log with
  | zero =>
    exact ⟨[], rfl, fun _ hc ↦ absurd hc List.not_mem_nil, fun h ↦ absurd h (Nat.lt_irrefl 0)⟩
  | succ n ih =>
    unfold balloonBackRetry setVmBalloonTarget
    dsimp only
    cases lib log.length with
    | true =>
      refine ⟨[_], rfl, fun c hc ↦ ?_, fun _ ↦ ⟨_, List.mem_singleton_self _, rfl, rfl, rfl⟩⟩
      rw [List.mem_singleton.mp hc]
      exact ⟨rfl, rfl, rfl⟩
    | false =>
      obtain ⟨sent, he, hown, _⟩ := ih (⟨v, .exit, fullTarget v, false⟩ :: log)
      refine ⟨sent ++ [⟨v, .exit, fullTarget v, false⟩], ?_, fun c hc ↦ ?_, fun _ ↦ ?_⟩
      · rw [List.append_assoc]
        exact he
      · rcases List.mem_append.mp hc with hc | hc
        · exact hown c hc
        · rw [List.mem_singleton.mp hc]
          exact ⟨rfl, rfl, rfl⟩
      · exact ⟨_, List.mem_append_right _ (List.mem_singleton_self _), rfl, rfl, rfl⟩

/-- Every ballooning record gets a command for its full memory, whatever libvirt answers, and no
other record gets one. -/
theorem balloonBackVmMem_sends (lib : Libvirt) (vms : List VirtualMachineInfo) (log : Log) :
    ∃ sent, balloonBackVmMem lib vms log = sent ++ log ∧
      (∀ c ∈ sent, ∃ v ∈ vms, v.ballooning = true ∧ IsExitFor c v) ∧
      ∀ v ∈ vms, v.ballooning = true → ∃ c ∈ sent, IsExitFor c v := by
  induction vms generalizing log with
  | nil =>
    exact ⟨[], rfl, fun _ hc ↦ absurd hc List.not_mem_nil, fun _ h ↦ absurd h List.not_mem_nil⟩
  | cons w vms ih =>
    unfold balloonBackVmMem at ih ⊢
    rw [List.foldl_cons]
    cases hb : w.ballooning with
    | false =>
      obtain ⟨sent, he, hown, hall⟩ := ih log
      refine ⟨sent, he, fun c hc ↦ ?_, fun v hv hvb ↦ ?_⟩
      · obtain ⟨v, hv, hcv⟩ := hown c hc
        exact ⟨v, List.mem_cons_of_mem w hv, hcv⟩
      · rcases List.mem_cons.mp hv with rfl | hv
        · exact absurd (hb.symm.trans hvb) Bool.false_ne_true
        · exact hall v hv hvb
    | true =>
      obtain ⟨first, hf, hfirst, hmem⟩ := balloonBackRetry_spec lib w setBalloonMax log
      obtain ⟨sent, he, hown, hall⟩ := ih (first ++ log)
      refine ⟨sent ++ first, ?_, fun c hc ↦ ?_, fun v hv hvb ↦ ?_⟩
      · rw [if_pos rfl, hf, he, List.append_assoc]
      · rcases List.mem_append.mp hc with hc | hc
        · obtain ⟨v, hv, hcv⟩ := hown c hc
          exact ⟨v, List.mem_cons_of_mem w hv, hcv⟩
        · exact ⟨w, List.mem_cons_self, hb, hfirst c hc⟩
      · rcases List.mem_cons.mp hv with rfl | hv
        · obtain ⟨c, hc, hcv⟩ := hmem (by decide)
          exact ⟨c, List.mem_append_right _ hc, hcv⟩
        · obtain ⟨c, hc, hcv⟩ := hall v hv hvb
          exact ⟨c, List.mem_append_left _ hc, hcv⟩

/-! ### Squeezed domains -/

/-- A command for less than its memory was accepted for the domain, and no later command for
its full memory was. -/
def Squeezed (log : Log) (domid : Int) : Prop :=
  ∃ newer c older, log = newer ++ c :: older ∧ (c.vm.domid = domid ∧ c.accepted = true) ∧
    c.Below ∧ ∀ d ∈ newer, d.vm.domid = domid ∧ d.accepted = true →
      d.target ≠ d.vm.memory.toUInt64

/-- The newest command decides, or leaves the decision to the older ones. -/
theorem squeezed_cons (c : Command) (log : Log) (domid : Int) :
    Squeezed (c :: log) domid ↔
      (c.vm.domid = domid ∧ c.accepted = true) ∧ c.Below ∨
        ((c.vm.domid = domid ∧ c.accepted = true) → c.target ≠ c.vm.memory.toUInt64) ∧
          Squeezed log domid := by
  constructor
  · rintro ⟨newer, b, older, he, hown, hbelow, hnone⟩
    cases newer with
    | nil =>
      obtain ⟨rfl, rfl⟩ := List.cons.inj he
      exact .inl ⟨hown, hbelow⟩
    | cons d newer =>
      obtain ⟨rfl, rfl⟩ := List.cons.inj he
      exact .inr ⟨hnone c List.mem_cons_self, newer, b, older, rfl, hown, hbelow,
        fun d hd ↦ hnone d (List.mem_cons_of_mem c hd)⟩
  · rintro (⟨hown, hbelow⟩ | ⟨hc, newer, b, older, rfl, hown, hbelow, hnone⟩)
    · exact ⟨[], c, log, rfl, hown, hbelow, fun _ h ↦ absurd h List.not_mem_nil⟩
    · refine ⟨c :: newer, b, older, rfl, hown, hbelow, fun d hd ↦ ?_⟩
      rcases List.mem_cons.mp hd with rfl | hd
      · exact hc
      · exact hnone d hd

/-- Nothing was sent, so nothing is squeezed. -/
theorem not_squeezed_nil (domid : Int) : ¬ Squeezed [] domid := by
  rintro ⟨newer, c, older, he, _⟩
  cases newer <;> cases he

instance Squeezed.decidable (domid : Int) : ∀ log, Decidable (Squeezed log domid)
  | [] => .isFalse (not_squeezed_nil domid)
  | c :: log =>
    have := Squeezed.decidable domid log
    decidable_of_iff _ (squeezed_cons c log domid).symm

/-- A domain is squeezed by commands sent before, or one was accepted for it since. -/
theorem squeezed_append {sent log : Log} {domid : Int} (h : Squeezed (sent ++ log) domid) :
    Squeezed log domid ∨ ∃ c ∈ sent, c.vm.domid = domid ∧ c.accepted = true := by
  induction sent with
  | nil => exact .inl h
  | cons c sent ih =>
    rw [List.cons_append, squeezed_cons] at h
    rcases h with ⟨hown, _⟩ | ⟨_, h⟩
    · exact .inr ⟨c, List.mem_cons_self, hown⟩
    · rcases ih h with h | ⟨d, hd, hown⟩
      · exact .inl h
      · exact .inr ⟨d, List.mem_cons_of_mem c hd, hown⟩

/-! ### Nothing squeezed is forgotten -/

/-- No record is inserted for a squeezed domain, and no balloon-back of one is declared done. -/
def Remembers (s : State) : Section → Prop
  | .findAddVMToList domid alloc probe =>
    Squeezed s.log domid → (findAddVMToList s.list domid alloc probe).vms = s.list.vms
  | .balloonCycle _ => ∀ v ∈ s.list.vms, Finishing v → ¬ Squeezed s.log v.domid
  | _ => True

instance (s : State) : ∀ a, Decidable (Remembers s a)
  | .findAddVMToList domid alloc probe =>
    inferInstanceAs (Decidable (Squeezed s.log domid →
      (findAddVMToList s.list domid alloc probe).vms = s.list.vms))
  | .balloonCycle _ =>
    inferInstanceAs (Decidable (∀ v ∈ s.list.vms, Finishing v → ¬ Squeezed s.log v.domid))
  | .updateAllVmInfoAndMemoryStats _ => .isTrue trivial
  | .updateAllVmInfo _ => .isTrue trivial
  | .findDeleteVMFromList _ => .isTrue trivial
  | .freeAllVM => .isTrue trivial

/-- The record of every squeezed domain is ballooning. -/
def SqueezeInv (s : State) : Prop :=
  ∀ v ∈ s.list.vms, Squeezed s.log v.domid → v.ballooning = true

private theorem squeezeInv_cycle {cfg : BalloonConfig} {s : State} (hwf : s.Wf)
    (h : SqueezeInv s) {lib : Libvirt}
    (hok : ∀ v ∈ s.list.vms, Finishing v → ¬ Squeezed s.log v.domid)
    {v : VirtualMachineInfo} (hv : v ∈ s.list.vms) {n : Nat}
    (hsent : sentTo v.addr (step cfg s (.balloonCycle lib)).log =
      (turn cfg v (lib n)).2 ++ sentTo v.addr s.log)
    (hsq : Squeezed (step cfg s (.balloonCycle lib)).log v.domid) :
    (turn cfg v (lib n)).1.ballooning = true := by
  obtain ⟨sent, he, hsends⟩ := cycle_sends hwf cfg lib
  rw [he] at hsent hsq
  rcases squeezed_append hsq with hold | ⟨c, hc, hcd, hacc⟩
  · have hb := h v hv hold
    cases hb' : (turn cfg v (lib n)).1.ballooning with
    | true => rfl
    | false => exact absurd hold (hok v hv ((turn_finishes_iff cfg hb (lib n)).mp hb'))
  · -- The accepted command is the one of this record's turn.
    obtain ⟨w, hw, ok, hcw⟩ := hsends.emitter c hc
    obtain ⟨hca, hcd', _⟩ := (turn_commands cfg w ok).2 c hcw
    obtain rfl := eq_of_key_eq (·.domid) hwf.list.domid_nodup hw hv (hcd'.symm.trans hcd)
    rw [sentTo_append] at hsent
    have hown := List.append_cancel_right hsent
    have hmem : c ∈ sentTo w.addr sent := List.mem_filter.mpr ⟨hc, by simpa using hca⟩
    exact turn_accepted_ballooning (hown ▸ hmem) hacc

private theorem squeezeInv_step {cfg : BalloonConfig} {s : State} (hwf : s.Wf)
    (h : SqueezeInv s) (a : Section) (hok : Remembers s a) : SqueezeInv (step cfg s a) := by
  intro v' hv' hsq
  rcases step_tracked hwf a hv' with ⟨_, _, _, hvms, alloc, probe, rfl⟩ | ⟨v, hv, _, act, hp, he⟩
  · have hsame := congrArg List.length ((hok hsq).symm.trans hvms)
    simp at hsame
  · have hvm : v' = ((s.tracked v).step cfg act).vm := congrArg Tracked.vm he
    have hlog : sentTo v'.addr (step cfg s a).log = ((s.tracked v).step cfg act).sent :=
      congrArg Tracked.sent he
    cases hp with
    | cycle lib n =>
      have hkey : v'.addr = v.addr ∧ v'.domid = v.domid := by
        rw [hvm]
        exact turn_key cfg v (lib n)
      rw [hkey.2] at hsq
      rw [hkey.1] at hlog
      rw [hvm]
      exact squeezeInv_cycle hwf h hok hv hlog hsq
    | stats => subst hvm; exact h v hv hsq
    | info => subst hvm; exact h v hv hsq
    | event _ _ hne =>
      subst hvm
      rw [step_log_eq (by rintro lib rfl; cases hne)] at hsq
      exact h v hv hsq

/-- At exit a record is sent its full memory. -/
def RestoredAtExit (lib : Libvirt) (s : State) (v : VirtualMachineInfo) : Prop :=
  ∃ sent, balloonBackVmMem lib s.list.vms s.log = sent ++ s.log ∧
    ∃ c ∈ sent, c.vm = v ∧ c.target = v.memory.toUInt64

/-- At exit every listed and squeezed domain is sent its full memory. -/
def ExitRestores (s : State) : Prop :=
  ∀ lib, ∀ v ∈ s.list.vms, Squeezed s.log v.domid → RestoredAtExit lib s v

/-- In every run that neither inserts a record for a squeezed domain nor declares the
balloon-back of one done, no squeezed domain is forgotten at exit. -/
theorem exitRestores_of_remembers (cfg : BalloonConfig) (acts : List Section)
    (h : StepsMeet (step cfg) Remembers State.init acts)
    (hmem : ∀ v ∈ (run (step cfg) State.init acts).list.vms, 0 ≤ v.memory) :
    ExitRestores (run (step cfg) State.init acts) := by
  have hinv := h.invariant (I := fun s ↦ s.Wf ∧ SqueezeInv s)
    ⟨State.wf_init, fun _ hv ↦ absurd hv List.not_mem_nil⟩
    (fun s a hok hs ↦ ⟨hs.1.step cfg a, squeezeInv_step hs.1 hs.2 a hok⟩)
  intro lib v hv hsq
  obtain ⟨sent, he, _, hsends⟩ := balloonBackVmMem_sends lib
    (run (step cfg) State.init acts).list.vms (run (step cfg) State.init acts).log
  obtain ⟨c, hc, hcv, _, htarget⟩ := hsends v hv (hinv.2 v hv hsq)
  exact ⟨sent, he, c, hc, hcv, htarget.trans (fullTarget_of_nonneg (hmem v hv))⟩

/-- A restored guest whose step-1 command was accepted is sent its full memory at exit. -/
theorem exitRestores_restored :
    ∃ v ∈ (run (step .default) State.init (restoredRun true)).list.vms,
      Squeezed (run (step .default) State.init (restoredRun true)).log v.domid ∧
        RestoredAtExit (fun _ ↦ false) (run (step .default) State.init (restoredRun true)) v := by
  obtain ⟨v, hv, hsq⟩ :
      ∃ v ∈ (run (step .default) State.init (restoredRun true)).list.vms,
        Squeezed (run (step .default) State.init (restoredRun true)).log v.domid := by
    decide
  exact ⟨v, hv, hsq, exitRestores_of_remembers .default (restoredRun true) (by decide)
    (by decide) (fun _ ↦ false) v hv hsq⟩

/-- The connection is lost right after step 1 was accepted and the list is rebuilt. -/
def reconnectRun : List Section :=
  restoredRun true ++ [.freeAllVM, .findAddVMToList 1 true (some restoredProbe)]

/-- The rebuilt record knows nothing of the command that its running domain still obeys. -/
theorem reconnect_forgets :
    ¬ ∀ acts, (∀ v ∈ (run (step .default) State.init acts).list.vms, 0 ≤ v.memory) →
      ∀ lib, ∀ v ∈ (run (step .default) State.init acts).list.vms, v.state = virDomainRunning →
        Squeezed (run (step .default) State.init acts).log v.domid →
          RestoredAtExit lib (run (step .default) State.init acts) v := by
  intro h
  obtain ⟨v, hv, hstate, hsq⟩ :
      ∃ v ∈ (run (step .default) State.init reconnectRun).list.vms, v.state = virDomainRunning ∧
        Squeezed (run (step .default) State.init reconnectRun).log v.domid := by
    decide
  obtain ⟨sent, he, c, hc, _⟩ := h reconnectRun (by decide) (fun _ ↦ true) v hv hstate hsq
  have hnone : sent = [] := List.append_cancel_right (he.symm.trans (by decide))
  rw [hnone] at hc
  cases hc

/-! ### The two threads at exit -/

/-- Where the balloon thread is: at its loop head, past the test of the stop flag, between
its two sections, or returned. -/
inductive BalloonPc where
  | head
  | entered
  | sampled
  | stopped
  deriving DecidableEq, Repr

/-- Where the main thread is after it has set the stop flag. -/
inductive MainPc where
  | stopSet
  | backDone
  | freed
  deriving DecidableEq, Repr

/-- The daemon at exit. `daemon.log` holds the commands of the balloon thread, `exitLog` those
of `BalloonBackVmMem`, and `after` those the balloon thread has sent since then. -/
structure ExitState where
  daemon : State
  balloon : BalloonPc
  main : MainPc
  exitLog : Log
  after : Log

/-- The atomic steps of the two threads. -/
inductive ExitAct where
  | testStop
  | stats (reply : StatsReply)
  | cycle (lib : Libvirt)
  | balloonBackVmMem (lib : Libvirt)
  | freeAllVM

/-- The stop flag is set; the balloon thread may be anywhere in its loop. -/
def exitStart (s : State) (pc : BalloonPc) : ExitState := ⟨s, pc, .stopSet, [], []⟩

/-- One step of one thread; a step that is not its thread's next one does nothing. -/
def exitStep (cfg : BalloonConfig) (e : ExitState) : ExitAct → ExitState
  | .testStop => if e.balloon = .head then { e with balloon := .stopped } else e
  | .stats reply =>
    if e.balloon = .entered then
      { e with
        daemon := step cfg e.daemon (.updateAllVmInfoAndMemoryStats reply)
        balloon := .sampled }
    else e
  | .cycle lib =>
    if e.balloon = .sampled then
      let next := step cfg e.daemon (.balloonCycle lib)
      { e with
        daemon := next
        balloon := .head
        after := if e.main = .stopSet then e.after
          else newCommands e.daemon.log next.log ++ e.after }
    else e
  | .balloonBackVmMem lib =>
    if e.main = .stopSet then
      { e with
        exitLog := balloonBackVmMem lib e.daemon.list.vms e.exitLog
        main := .backDone }
    else e
  | .freeAllVM =>
    if e.main = .backDone then
      { e with daemon := step cfg e.daemon .freeAllVM, main := .freed }
    else e

/-- A cycle section that runs after `BalloonBackVmMem` finds no record to which it would send
a command for less than the memory. -/
def NoSqueezeDue (cfg : BalloonConfig) (e : ExitState) : ExitAct → Prop
  | .cycle _ =>
    e.balloon = .sampled → e.main ≠ .stopSet → ∀ v ∈ e.daemon.list.vms, ¬ SqueezeDue cfg v
  | _ => True

/-- The exit command is final: nothing for less than a VM's memory follows it. -/
def ExitFinal (e : ExitState) : Prop := ∀ c ∈ e.after, ¬ c.Below

/-- A step leaves the daemon's state alone or runs one of its sections. -/
theorem exitStep_daemon (cfg : BalloonConfig) (e : ExitState) (a : ExitAct) :
    (exitStep cfg e a).daemon = e.daemon ∨
      ∃ sec, (exitStep cfg e a).daemon = step cfg e.daemon sec := by
  cases a with
  | testStop => exact .inl (by simp only [exitStep, apply_ite ExitState.daemon, ite_self])
  | stats reply =>
    simp only [exitStep]
    split
    · exact .inr ⟨.updateAllVmInfoAndMemoryStats reply, rfl⟩
    · exact .inl rfl
  | cycle lib =>
    simp only [exitStep]
    split
    · exact .inr ⟨.balloonCycle lib, rfl⟩
    · exact .inl rfl
  | balloonBackVmMem lib =>
    exact .inl (by simp only [exitStep, apply_ite ExitState.daemon, ite_self])
  | freeAllVM =>
    simp only [exitStep]
    split
    · exact .inr ⟨.freeAllVM, rfl⟩
    · exact .inl rfl

/-- Only a cycle section adds to the commands sent after the exit command. -/
theorem exitStep_after (cfg : BalloonConfig) (e : ExitState) {a : ExitAct}
    (hne : ∀ lib, a ≠ .cycle lib) : (exitStep cfg e a).after = e.after := by
  cases a with
  | cycle lib => exact absurd rfl (hne lib)
  | _ => simp only [exitStep, apply_ite ExitState.after, ite_self]

private theorem exitFinal_step_iff {cfg : BalloonConfig} {e : ExitState}
    (hr : Reachable (step cfg) State.init e.daemon) (a : ExitAct) :
    ExitFinal (exitStep cfg e a) ↔ ExitFinal e ∧ NoSqueezeDue cfg e a := by
  unfold ExitFinal
  cases a with
  | cycle lib =>
    obtain ⟨sent, he, hsends⟩ := cycle_sends (wf_of_reachable hr) cfg lib
    have hdue := hsends.none_iff fun v hv ok ↦
      turn_squeezes_iff cfg (needBalloonFlag_le hr hv) ok
    simp only [exitStep, NoSqueezeDue]
    by_cases hpc : e.balloon = .sampled
    · simp only [hpc, if_true, forall_const]
      by_cases hmain : e.main = .stopSet
      · simp only [hmain, if_true, ne_eq, not_true_eq_false, false_implies, and_true]
      · simp only [hmain, if_false, ne_eq, not_false_eq_true, true_implies]
        rw [he, newCommands_append, ← hdue]
        simp only [List.mem_append, or_imp, forall_and]
        exact and_comm
    · simp only [hpc, if_false, false_implies, and_true]
  | _ =>
    rw [exitStep_after cfg e (by intro lib h; cases h)]
    exact (and_iff_left trivial).symm

/-- For every run up to the stop, every place of the balloon thread and every interleaving
of the two threads, the exit command is final exactly when no cycle section after it finds a
record due for less than its memory. -/
theorem exitFinal_iff (cfg : BalloonConfig) (acts : List Section) (pc : BalloonPc)
    (steps : List ExitAct) :
    ExitFinal (run (exitStep cfg) (exitStart (run (step cfg) State.init acts) pc) steps) ↔
      StepsMeet (exitStep cfg) (NoSqueezeDue cfg)
        (exitStart (run (step cfg) State.init acts) pc) steps := by
  have hinit : ExitFinal (exitStart (run (step cfg) State.init acts) pc) :=
    fun _ hc ↦ absurd hc List.not_mem_nil
  rw [stepsMeet_iff (I := fun e ↦ Reachable (step cfg) State.init e.daemon) (P := ExitFinal)
    ?_ (fun e a hr ↦ exitFinal_step_iff hr a) ⟨acts, rfl⟩ steps]
  · exact and_iff_right hinit
  · intro e a hr
    rcases exitStep_daemon cfg e a with he | ⟨sec, he⟩
    · rw [he]
      exact hr
    · rw [he]
      exact hr.step sec

/-- The step-1 command of the restored guest was rejected, the balloon thread has entered its
next iteration when the stop flag is set, and retries step 1 after the exit command. -/
theorem exit_command_overridden :
    ¬ ∀ acts pc steps, ExitFinal
      (run (exitStep .default) (exitStart (run (step .default) State.init acts) pc) steps) := by
  intro h
  have hrun := h (restoredRun false) .entered
    [.balloonBackVmMem (fun _ ↦ true), .stats restoredStats, .cycle (fun _ ↦ true)]
  revert hrun
  unfold ExitFinal
  decide

end Memlink
