import Memlink.Daemon.Exit

/-!
# Commands and the memory

Whether the value of a command, from any of the four call sites of `SetVmBalloonTarget`, is
at most the memory of its VM. The step-1 value is `memory - 2048` without a guard
(`memlink_core.c:230–231`).
-/

namespace Memlink

open Transition

/-- No command exceeds the memory of its VM. -/
def WithinMemory (log : Log) : Prop := ∀ c ∈ log, c.Within

instance (log : Log) : Decidable (WithinMemory log) :=
  inferInstanceAs (Decidable (∀ c ∈ log, c.Within))

/-- The cycle section finds no record due for step 1 whose memory is below 2 MiB. -/
def ReservePresent (s : State) : Section → Prop
  | .balloonCycle _ => ∀ v ∈ s.list.vms, ¬ ReserveMissing v
  | _ => True

private theorem withinMemory_retry (lib : Libvirt) (v : VirtualMachineInfo) (n : Nat) (log : Log) :
    WithinMemory (balloonBackRetry lib v n log) ↔ WithinMemory log := by
  induction n generalizing log with
  | zero => exact Iff.rfl
  | succ n ih =>
    have hcons : ∀ ok, WithinMemory (⟨v, .exit, fullTarget v, ok⟩ :: log) ↔ WithinMemory log := by
      intro ok
      unfold WithinMemory
      rw [List.forall_mem_cons]
      exact and_iff_right fun hm ↦ Int.le_of_eq (toNat_fullTarget hm)
    unfold balloonBackRetry setVmBalloonTarget
    dsimp only
    cases lib log.length with
    | true => exact hcons true
    | false => exact (ih _).trans (hcons false)

/-- The exit commands stay within the memory. -/
theorem withinMemory_exit (lib : Libvirt) (vms : List VirtualMachineInfo) (log : Log) :
    WithinMemory (balloonBackVmMem lib vms log) ↔ WithinMemory log := by
  unfold balloonBackVmMem
  induction vms generalizing log with
  | nil => exact Iff.rfl
  | cons v vms ih =>
    rw [List.foldl_cons, ih]
    split
    · exact withinMemory_retry lib v setBalloonMax log
    · exact Iff.rfl

/-- In every run followed by the exit section, all commands stay within the memory of their
VMs exactly when no cycle section finds a record due for step 1 with less than the 2 MiB that
step 1 holds back. -/
theorem withinMemory_iff (cfg : BalloonConfig) (acts : List Section) (lib : Libvirt) :
    WithinMemory (balloonBackVmMem lib (run (step cfg) State.init acts).list.vms
        (run (step cfg) State.init acts).log) ↔
      StepsMeet (step cfg) ReservePresent State.init acts := by
  have hinit : WithinMemory State.init.log := fun _ hc ↦ absurd hc List.not_mem_nil
  rw [withinMemory_exit, stepsMeet_iff (I := Reachable (step cfg) State.init)
    (P := fun s ↦ WithinMemory s.log) (fun _ a h ↦ h.step a) ?_ (Reachable.init _ _) acts]
  · exact and_iff_right hinit
  · intro s a hr
    cases a with
    | balloonCycle lib =>
      obtain ⟨sent, he, hsends⟩ := cycle_sends (wf_of_reachable hr) cfg lib
      have hnone := hsends.none_iff fun v _ ok ↦ turn_exceeds_iff cfg v ok
      unfold WithinMemory
      rw [he, ReservePresent, ← hnone]
      simp only [List.mem_append, or_imp, forall_and, Classical.not_not]
      exact and_comm
    | _ => exact (and_iff_left trivial).symm

/-- A 1 MiB guest is added with half of its memory ballooned away: step 1 asks for almost
`2^64` KiB. -/
def tinyRun : List Section :=
  [.findAddVMToList 1 true (some ⟨some "tiny", 0, 0, some ⟨1, 1024, 512⟩⟩),
    .updateAllVmInfoAndMemoryStats (.records [⟨1, [⟨.balloonCurrent, 512⟩,
      ⟨.balloonMaximum, 1024⟩, ⟨.balloonAvailable, 500⟩, ⟨.balloonUnused, 300⟩]⟩]),
    .balloonCycle (fun _ ↦ true)]

/-- The step-1 value of the tiny guest wraps. -/
theorem tiny_exceeds :
    ¬ ∀ acts lib, WithinMemory (balloonBackVmMem lib (run (step .default) State.init acts).list.vms
      (run (step .default) State.init acts).log) := by
  intro h
  have hrun := h tinyRun (fun _ ↦ true)
  revert hrun
  decide

end Memlink
