import Memlink.Balloon.Commands

/-!
# The completion tests

`BalloonCheck` (`memlink_core.c:156–194`) declares a phase done when the balloon is within
1 MiB of its goal. Both differences are unsigned, so the tests only look at one side of the
goal: the balloon size is not below the target in the down phase and not above the memory in
the balloon-back.
-/

namespace Memlink

open MachineInt

/-- Sizes that the tests compare, in the range of real guests. -/
structure GoalsInRange (v : VirtualMachineInfo) : Prop where
  actual_pos : v.memstat.actualBalloon ≠ 0
  actual_lt : v.memstat.actualBalloon.toNat < 2 ^ 49
  target_pos : 0 < v.balloonTarget.toInt
  target_lt : v.balloonTarget.toInt < 2 ^ 49
  memory_pos : 0 < v.memory.toInt
  memory_lt : v.memory.toInt < 2 ^ 49

/-- The balloon is within 1 MiB of its target, on either side. -/
def NearTarget (v : VirtualMachineInfo) : Prop :=
  ((v.memstat.actualBalloon.toNat : Int) - v.balloonTarget.toInt).natAbs < 1024

/-- The balloon is within 1 MiB of the memory, on either side. -/
def NearMemory (v : VirtualMachineInfo) : Prop :=
  (v.memory.toInt - (v.memstat.actualBalloon.toNat : Int)).natAbs < 1024

/-- Near its goal a record is declared done: in the down phase `BalloonCheck` returns -1 and
leaves the record alone, in the balloon-back it ends the ballooning. -/
def DoneNearGoal (v : VirtualMachineInfo) : Prop :=
  (v.ballooningDown = true → NearTarget v → balloonCheck v = (v, -1)) ∧
    (v.ballooningDown = false → NearMemory v → (balloonCheck v).1.ballooning = false)

/-- The balloon has not settled past its goal: not below the target while going down, not
above the memory while going back. -/
def NotPastGoal (v : VirtualMachineInfo) : Prop :=
  (v.ballooningDown = true → NearTarget v →
    v.balloonTarget.toInt ≤ v.memstat.actualBalloon.toNat) ∧
    (v.ballooningDown = false → NearMemory v →
      v.memstat.actualBalloon.toNat ≤ v.memory.toInt)

/-- The down test, on numbers. -/
theorem atTarget_iff {v : VirtualMachineInfo} (h : GoalsInRange v) :
    atTarget v = true ↔ v.balloonTarget.toInt ≤ v.memstat.actualBalloon.toNat ∧
      (v.memstat.actualBalloon.toNat : Int) < v.balloonTarget.toInt + 1024 := by
  have hpos := h.target_pos
  have hlt := h.target_lt
  have hval := toNat_toUInt64 (a := v.balloonTarget) (by omega)
  have hmark : lowWaterMark.toNat = 1024 := rfl
  unfold atTarget
  rw [decide_eq_true_iff, sub_lt_iff (by omega), hmark]
  omega

/-- The balloon-back test, on numbers. -/
theorem shortage_lt_iff {v : VirtualMachineInfo} (h : GoalsInRange v) :
    shortage v < lowWaterMark ↔ (v.memstat.actualBalloon.toNat : Int) ≤ v.memory.toInt ∧
      v.memory.toInt < v.memstat.actualBalloon.toNat + 1024 := by
  have hpos := h.memory_pos
  have hlt := h.actual_lt
  have hval := toNat_toUInt64 (a := v.memory) (by omega)
  have hmark : lowWaterMark.toNat = 1024 := rfl
  unfold shortage
  rw [sub_lt_iff (by omega), hmark]
  omega

/-- Recording a sample moves the index, whatever it was. -/
theorem recordSample_ne (v : VirtualMachineInfo) : (recordSample v).balloonI ≠ v.balloonI := by
  change (v.balloonI + 1).tmod 2 ≠ v.balloonI
  have hlo := Int.lt_tmod_of_pos (v.balloonI + 1) (b := 2) (by decide)
  have hhi := Int.tmod_lt_of_pos (v.balloonI + 1) (b := 2) (by decide)
  intro he
  rw [he] at hlo hhi
  obtain h | h | h : v.balloonI = -1 ∨ v.balloonI = 0 ∨ v.balloonI = 1 := by omega
  · rw [h] at he
    exact absurd he (by decide)
  · rw [h] at he
    exact absurd he (by decide)
  · rw [h] at he
    exact absurd he (by decide)

section Phases

variable {v : VirtualMachineInfo}

private theorem check_down_iff (hi : v.incompleteBalloon = false) (hd : v.ballooningDown = true) :
    balloonCheck v = (v, -1) ↔ atTarget v = true := by
  unfold balloonCheck
  rw [if_neg (by simp [hi]), if_pos hd]
  constructor
  · intro he
    split at he
    · assumption
    · -- Past the test a sample is recorded, so the record is not the same.
      exfalso
      dsimp only at he
      split at he
      · exact recordSample_ne v (congrArg (·.1.balloonI) he)
      · exact recordSample_ne v (congrArg (·.1.balloonI) he)
  · intro hat
    rw [if_pos hat]

private theorem check_back_iff (hb : v.ballooning = true) (hi : v.incompleteBalloon = false)
    (hd : v.ballooningDown = false) :
    (balloonCheck v).1.ballooning = false ↔ shortage v < lowWaterMark := by
  unfold balloonCheck
  rw [if_neg (by simp [hi]), if_neg (by simp [hd])]
  by_cases hs : shortage v < lowWaterMark
  · rw [if_pos hs]
    exact iff_of_true rfl hs
  · rw [if_neg hs]
    split
    · exact iff_of_false (by simp [hb]) hs
    · exact iff_of_false (by simp [hb]) hs

end Phases

/-- For every ballooning record that is not incomplete, with sizes in range: `BalloonCheck`
declares a phase done near its goal exactly when the balloon has not settled past it. -/
theorem doneNearGoal_iff {v : VirtualMachineInfo} (hb : v.ballooning = true)
    (hi : v.incompleteBalloon = false) (h : GoalsInRange v) :
    DoneNearGoal v ↔ NotPastGoal v := by
  unfold DoneNearGoal NotPastGoal
  refine and_congr ?_ ?_
  · refine forall_congr' fun hd ↦ forall_congr' fun hnear ↦ ?_
    unfold NearTarget at hnear
    rw [check_down_iff hi hd, atTarget_iff h]
    omega
  · refine forall_congr' fun hd ↦ forall_congr' fun hnear ↦ ?_
    unfold NearMemory at hnear
    rw [check_back_iff hb hi hd, shortage_lt_iff h]
    omega

/-- A guest in the down phase with a 4 GiB target and the given balloon size. -/
def settledGuest (actual : UInt64) : VirtualMachineInfo :=
  { idleGuest with
    memstat := { idleGuest.memstat with actualBalloon := actual }
    balloonTarget := 4194304
    ballooning := true
    ballooningDown := true }

/-- At its target exactly, the guest is declared done. -/
theorem doneNearGoal_atTarget :
    GoalsInRange (settledGuest 4194304) ∧ balloonCheck (settledGuest 4194304) =
      (settledGuest 4194304, -1) := by
  have hrange : GoalsInRange (settledGuest 4194304) :=
    ⟨by decide, by decide, by decide, by decide, by decide, by decide⟩
  have hdone := (doneNearGoal_iff rfl rfl hrange).mpr
    ⟨fun _ _ ↦ by decide, fun hd ↦ absurd hd.symm Bool.false_ne_true⟩
  exact ⟨hrange, hdone.1 rfl (by unfold NearTarget; decide)⟩

/-- One page below its target the guest is not declared done: a sample is recorded. -/
theorem settled_below_target :
    ¬ ∀ v, v.ballooning = true → v.incompleteBalloon = false → GoalsInRange v →
      DoneNearGoal v := by
  intro h
  have hrange : GoalsInRange (settledGuest 4194300) :=
    ⟨by decide, by decide, by decide, by decide, by decide, by decide⟩
  have hcheck := (h (settledGuest 4194300) rfl rfl hrange).1 rfl (by unfold NearTarget; decide)
  revert hcheck
  decide

end Memlink
