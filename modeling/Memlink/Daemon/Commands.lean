import Memlink.Balloon.Commands
import Memlink.Daemon.State

/-!
# Commands of the balloon thread

Which commands an iteration of `BalloonVmMemThread` sends in a run of the daemon, and which
of them go to a Windows guest.
-/

namespace Memlink

open Transition

/-- Only the cycle section sends commands. -/
theorem step_log_eq {cfg : BalloonConfig} {s : State} {a : Section}
    (h : ∀ lib, a ≠ .balloonCycle lib) : (step cfg s a).log = s.log := by
  cases a with
  | balloonCycle lib => exact absurd rfl (h lib)
  | _ => rfl

/-- Sections without a cycle section send no commands. -/
theorem run_log_eq {cfg : BalloonConfig} (s : State) (acts : List Section)
    (h : ∀ a ∈ acts, ∀ lib, a ≠ .balloonCycle lib) : (run (step cfg) s acts).log = s.log := by
  induction acts generalizing s with
  | nil => rfl
  | cons a acts ih =>
    rw [run_cons, ih _ (fun b hb ↦ h b (List.mem_cons_of_mem a hb)),
      step_log_eq (h a List.mem_cons_self)]

/-- The commands `sent` are those of one turn for each listed record. -/
structure CycleSends (cfg : BalloonConfig) (s : State) (sent : Log) : Prop where
  emitter : ∀ c ∈ sent, ∃ v ∈ s.list.vms, ∃ ok, c ∈ (turn cfg v ok).2
  byAddr : ∀ v ∈ s.list.vms, ∃ ok, sentTo v.addr sent = (turn cfg v ok).2
  byDomid : ∀ domid, (sent.filter (fun c ↦ c.vm.domid = domid)).length ≤ 1

/-- The cycle section sends the commands of one turn for each listed record. -/
theorem cycle_sends {s : State} (h : s.Wf) (cfg : BalloonConfig) (lib : Libvirt) :
    ∃ sent, (step cfg s (.balloonCycle lib)).log = sent ++ s.log ∧ CycleSends cfg s sent := by
  obtain ⟨vms', sent, he, ht⟩ := balloonCycle_traversal cfg lib s.list.vms s.log
  have hdomid : ∀ v n, ∀ c ∈ (turn cfg v (lib n)).2, c.vm.domid = v.domid :=
    fun v n c hc ↦ ((turn_commands cfg v (lib n)).2 c hc).2.1
  refine ⟨sent, by simp only [step, he], fun c hc ↦ ?_, fun v hv ↦ ?_, fun domid ↦ ?_⟩
  · obtain ⟨v, hv, n, hcv⟩ := ht.exists_emitter hc
    exact ⟨v, hv, lib n, hcv⟩
  · obtain ⟨n, _, hs⟩ := ht.project (fun w k c hc ↦ ((turn_commands cfg w (lib k)).2 c hc).1)
      h.list.addr_nodup hv
    exact ⟨lib n, hs⟩
  · by_cases hd : domid ∈ s.list.vms.map (·.domid)
    · obtain ⟨v, hv, rfl⟩ := List.mem_map.mp hd
      obtain ⟨n, _, hs⟩ := ht.project hdomid h.list.domid_nodup hv
      rw [hs]
      exact (turn_commands cfg v (lib n)).1
    · rw [ht.filter_eq_nil hdomid hd]
      exact Nat.zero_le 1

/-- The reclaim counter of a listed record is below its trigger. -/
theorem needBalloonFlag_le {cfg : BalloonConfig} {s : State}
    (h : Reachable (step cfg) State.init s) {v : VirtualMachineInfo} (hv : v ∈ s.list.vms) :
    v.needBalloonFlag ≤ 19 :=
  (life_of_reachable h hv).balloonInv.flag.2

/-- If every turn sends a command with a property exactly when something is due for its
record, the cycle sends none exactly when nothing is due. -/
theorem CycleSends.none_iff {cfg : BalloonConfig} {s : State} {sent : Log}
    (h : CycleSends cfg s sent) {Q : Command → Prop} {D : VirtualMachineInfo → Prop}
    (hturn : ∀ v ∈ s.list.vms, ∀ ok, (∃ c ∈ (turn cfg v ok).2, Q c) ↔ D v) :
    (∀ c ∈ sent, ¬ Q c) ↔ ∀ v ∈ s.list.vms, ¬ D v := by
  constructor
  · intro hall v hv hdue
    obtain ⟨ok, hok⟩ := h.byAddr v hv
    obtain ⟨c, hc, hq⟩ := (hturn v hv ok).mpr hdue
    rw [← hok, sentTo] at hc
    exact hall c (List.mem_filter.mp hc).1 hq
  · intro hall c hc hq
    obtain ⟨v, hv, ok, hcv⟩ := h.emitter c hc
    exact hall v hv ((hturn v hv ok).mp ⟨c, hcv, hq⟩)

/-! ### One iteration of the balloon thread -/

/-- An iteration of `BalloonVmMemThread`: other threads run sections before its statistics
section, while it sleeps, and between its two sections. -/
structure Iteration where
  before : List Section
  reply : StatsReply
  between : List Section
  lib : Libvirt
  others : ∀ a ∈ before ++ between, a.ofBalloonThread = false

/-- The sections of an iteration up to its cycle section. -/
def Iteration.upToCycle (i : Iteration) : List Section :=
  i.before ++ .updateAllVmInfoAndMemoryStats i.reply :: i.between

/-- All sections of an iteration. -/
def Iteration.sections (i : Iteration) : List Section := i.upToCycle ++ [.balloonCycle i.lib]

/-- The cycle section comes last. -/
theorem Iteration.upToCycle_not_cycle (i : Iteration) :
    ∀ a ∈ i.upToCycle, ∀ lib, a ≠ .balloonCycle lib := by
  rintro a ha lib rfl
  rcases List.mem_append.mp ha with hb | hb
  · cases i.others _ (List.mem_append_left _ hb)
  · rcases List.mem_cons.mp hb with hb | hb
    · cases hb
    · cases i.others _ (List.mem_append_right _ hb)

/-- The command discipline. In every run, take an iteration of the balloon thread: any
statistics reply, any sections of the other threads around it, then the cycle section under
any pattern of failures. If no record's memory is negative when the cycle section runs, each
domain gets at most one command, every command is of exactly one kind, and the full memory
is only sent to a VM that has it or is at most 2 MiB below it. -/
theorem iteration_commands (cfg : BalloonConfig) (acts : List Section) (i : Iteration)
    (hmem : ∀ v ∈ (run (step cfg) State.init (acts ++ i.upToCycle)).list.vms, 0 ≤ v.memory) :
    ∃ sent,
      (run (step cfg) State.init (acts ++ i.sections)).log =
        sent ++ (run (step cfg) State.init acts).log ∧
      (∀ domid, (sent.filter (fun c ↦ c.vm.domid = domid)).length ≤ 1) ∧
      ∀ c ∈ sent, ∃ v ∈ (run (step cfg) State.init (acts ++ i.upToCycle)).list.vms,
        v.addr = c.vm.addr ∧ v.domid = c.vm.domid ∧
          IsKind cfg v c.target c.site ∧ (∀ k, IsKind cfg v c.target k → k = c.site) ∧
          (c.target = v.memory.toUInt64 →
            v.memory ≤ v.currentMem ∨
              v.memory.toInt ≤ v.memstat.actualBalloon.toNat + 2048) := by
  have hlog : (run (step cfg) State.init (acts ++ i.upToCycle)).log =
      (run (step cfg) State.init acts).log := by
    rw [run_append, run_log_eq _ _ i.upToCycle_not_cycle]
  unfold Iteration.sections
  rw [← List.append_assoc, run_concat]
  generalize hs : run (step cfg) State.init (acts ++ i.upToCycle) = s at hmem hlog ⊢
  have hwf : s.Wf := wf_of_reachable ⟨_, hs⟩
  obtain ⟨sent, he, hc⟩ := cycle_sends hwf cfg i.lib
  refine ⟨sent, by rw [he, hlog], hc.byDomid, fun c hcs ↦ ?_⟩
  obtain ⟨v, hv, ok, hcv⟩ := hc.emitter c hcs
  obtain ⟨haddr, hdomid, _⟩ := (turn_commands cfg v ok).2 c hcv
  have hkind := turn_isKind (hmem v hv) ok c hcv
  exact ⟨v, hv, haddr.symm, hdomid.symm, hkind, fun k hk ↦ hk.unique hkind,
    fun ht ↦ hkind.full (hmem v hv) ht⟩

/-- An iteration in which the restored guest is refreshed between the sections. -/
def restoredIteration : Iteration :=
  ⟨[.findAddVMToList 1 true (some restoredProbe)], restoredStats,
    [.updateAllVmInfo (fun _ ↦ none)], fun _ ↦ true, by decide⟩

/-- The restored guest gets the step-1 command and no other. -/
theorem iteration_commands_restored :
    ∃ c v, (run (step .default) State.init restoredIteration.sections).log = [c] ∧
      c.target = 8386560 ∧ IsKind .default v c.target .step1 := by
  obtain ⟨sent, hlog, _, hkind⟩ :=
    iteration_commands .default [] restoredIteration (by decide)
  rw [show (run (step .default) State.init []).log = [] from rfl, List.append_nil,
    List.nil_append] at hlog
  obtain ⟨c, hc, hsite, htarget⟩ : ∃ c, sent = [c] ∧ c.site = .step1 ∧ c.target = 8386560 := by
    rw [← hlog]
    exact ⟨_, rfl, by decide, by decide⟩
  subst hc
  obtain ⟨v, _, _, _, hv, _⟩ := hkind c List.mem_cons_self
  exact ⟨c, v, hlog, htarget, hsite ▸ hv⟩

/-! ### Windows guests -/

/-- A cycle section finds no Windows guest from which memory is due to be reclaimed. -/
def WindowsSpared (s : State) : Section → Prop
  | .balloonCycle _ => ∀ v ∈ s.list.vms, ¬ (v.isWindows = true ∧ ReclaimDue v)
  | _ => True

/-- No down command has gone to a record created as a Windows guest. -/
def NoWindowsBallooned (s : State) : Prop :=
  ∀ c ∈ s.log, ¬ (c.site = .doBallooning ∧ c.vm.isWindows = true)

private theorem turn_windows_iff (cfg : BalloonConfig) {v : VirtualMachineInfo}
    (hf : v.needBalloonFlag ≤ 19) (ok : Bool) :
    (∃ c ∈ (turn cfg v ok).2, c.site = .doBallooning ∧ c.vm.isWindows = true) ↔
      v.isWindows = true ∧ ReclaimDue v := by
  have hsame : ∀ c ∈ (turn cfg v ok).2, c.vm.isWindows = v.isWindows := by
    intro c hc
    obtain ⟨d, hd⟩ := turn_command_vm hc
    rw [hd]
    rfl
  rw [← turn_reclaims_iff cfg hf ok]
  constructor
  · rintro ⟨c, hc, hsite, hwin⟩
    exact ⟨(hsame c hc).symm.trans hwin, c, hc, hsite⟩
  · rintro ⟨hwin, c, hc, hsite⟩
    exact ⟨c, hc, hsite, (hsame c hc).trans hwin⟩

/-- The runs in which no Windows guest is ballooned are exactly those whose cycles find no
Windows guest with memory due to be reclaimed: the flag `isWindows` itself is never read. -/
theorem noWindowsBallooned_iff (cfg : BalloonConfig) (acts : List Section) :
    NoWindowsBallooned (run (step cfg) State.init acts) ↔
      StepsMeet (step cfg) WindowsSpared State.init acts := by
  have hinit : NoWindowsBallooned State.init := fun _ hc ↦ absurd hc List.not_mem_nil
  rw [stepsMeet_iff (I := Reachable (step cfg) State.init) (P := NoWindowsBallooned)
    (fun _ a h ↦ h.step a) ?_ (Reachable.init _ _) acts]
  · exact and_iff_right hinit
  · intro s a hr
    cases a with
    | balloonCycle lib =>
      obtain ⟨sent, he, hsends⟩ := cycle_sends (wf_of_reachable hr) cfg lib
      have hspared := hsends.none_iff fun v hv ok ↦
        turn_windows_iff cfg (needBalloonFlag_le hr hv) ok
      unfold NoWindowsBallooned
      rw [he, WindowsSpared, ← hspared]
      simp only [List.mem_append, or_imp, forall_and]
      exact and_comm
    | _ => exact (and_iff_left trivial).symm

/-- libvirt's answer for an 8 GiB guest with all its memory, given `CheckVMIsWindows`. -/
def fullProbe (windows : Int) : DomainProbe :=
  ⟨some "full", 0, windows, some ⟨1, 8388608, 8388608⟩⟩

/-- Statistics of that guest with an eighth of its memory in use, and iterations that read
them. -/
def idleIterations (n : Nat) : List Section :=
  (List.replicate n
    [.updateAllVmInfoAndMemoryStats
      (.records [⟨1, [⟨.balloonCurrent, 8388608⟩, ⟨.balloonMaximum, 8388608⟩,
        ⟨.balloonAvailable, 8000000⟩, ⟨.balloonUsable, 7000000⟩]⟩]),
      .balloonCycle (fun _ ↦ true)]).flatten

/-- A Windows guest is added and found idle in nineteen iterations: the last one reclaims
memory from it. -/
theorem windows_ballooned :
    ¬ ∀ acts, NoWindowsBallooned (run (step .default) State.init acts) := by
  intro h
  have hrun := h (.findAddVMToList 1 true (some (fullProbe 1)) :: idleIterations 19)
  revert hrun
  unfold NoWindowsBallooned
  decide +kernel

end Memlink
