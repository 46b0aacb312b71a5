import Memlink.Balloon.Invariant

/-!
# What a command says about its record

Each command that a turn of the cycle sends is of one of three kinds, and the conditions
under which it is sent are read here off the record as the cycle section finds it, before
the two passes that precede `BalloonMainLoop`.
-/

namespace Memlink

open MachineInt

/-! ### The passes before the main loop -/

/-- The two passes keep the eligibility of a record. -/
theorem eligible_prepared (v : VirtualMachineInfo) : Eligible (prepared v) ↔ Eligible v := by
  obtain ⟨c, hc⟩ := prepared_eq_withControl v
  rw [hc]
  exact Iff.rfl

/-- The two passes keep everything libvirt reports. -/
theorem prepared_reported (v : VirtualMachineInfo) :
    (prepared v).memory = v.memory ∧ (prepared v).state = v.state ∧
      (prepared v).memstat = v.memstat ∧ (prepared v).memparam = v.memparam ∧
      (prepared v).isWindows = v.isWindows := by
  obtain ⟨c, hc⟩ := prepared_eq_withControl v
  rw [hc]
  exact ⟨rfl, rfl, rfl, rfl, rfl⟩

/-- The target does not depend on the balloon fields. -/
theorem balloonTargetOf_prepared (cfg : BalloonConfig) (v : VirtualMachineInfo) :
    balloonTargetOf cfg (prepared v) = balloonTargetOf cfg v := by
  obtain ⟨c, hc⟩ := prepared_eq_withControl v
  rw [hc]
  rfl

/-- The validity of the statistics does not depend on the balloon fields. -/
theorem checkVmMemoryStat_prepared (v : VirtualMachineInfo) :
    checkVmMemoryStat (prepared v) = checkVmMemoryStat v := by
  obtain ⟨c, hc⟩ := prepared_eq_withControl v
  rw [hc]
  rfl

/-- The usage tests do not depend on the balloon fields. -/
theorem usage_prepared (v : VirtualMachineInfo) :
    usageHigh (prepared v) = usageHigh v ∧ usageLow (prepared v) = usageLow v := by
  obtain ⟨c, hc⟩ := prepared_eq_withControl v
  rw [hc]
  exact ⟨rfl, rfl⟩

private theorem notePressure_flags (v : VirtualMachineInfo) :
    (notePressure v).ballooning = v.ballooning ∧
      (notePressure v).ballooningDown = v.ballooningDown ∧
      (notePressure v).incompleteBalloon = v.incompleteBalloon := by
  unfold notePressure recordPressure
  split
  · split
    · exact ⟨rfl, rfl, rfl⟩
    · split
      · split
        · exact ⟨rfl, rfl, rfl⟩
        · exact ⟨rfl, rfl, rfl⟩
      · exact ⟨rfl, rfl, rfl⟩
  · exact ⟨rfl, rfl, rfl⟩

/-- The pressure pass leaves the flags of the first pass. -/
theorem prepared_flags (v : VirtualMachineInfo) :
    (prepared v).ballooning = (flagIncomplete v).ballooning ∧
      (prepared v).ballooningDown = (flagIncomplete v).ballooningDown ∧
      (prepared v).incompleteBalloon = (flagIncomplete v).incompleteBalloon :=
  notePressure_flags (flagIncomplete v)

/-- The first pass leaves a ballooning record as it is. -/
theorem flagIncomplete_eq_self {v : VirtualMachineInfo} (h : v.ballooning = true) :
    flagIncomplete v = v := by
  unfold flagIncomplete
  split
  · rfl
  · split
    · next hc => exact absurd (hc.1.symm.trans h) Bool.false_ne_true
    · rfl

/-- The first pass leaves a record with its full memory as it is. -/
theorem flagIncomplete_of_full {v : VirtualMachineInfo} (h : v.memory ≤ v.currentMem) :
    flagIncomplete v = v := by
  unfold flagIncomplete
  split
  · rfl
  · split
    · next hc =>
      have hlt := Int64.lt_iff_toInt_lt.mp hc.2
      have hle := Int64.le_iff_toInt_le.mp h
      omega
    · rfl

/-- A record with valid statistics that is idle after the first pass was idle before it and
had its full memory. -/
theorem flagIncomplete_idle {v : VirtualMachineInfo} (hs : checkVmMemoryStat v = 0)
    (h : (flagIncomplete v).ballooning = false) :
    v.ballooning = false ∧ v.memory ≤ v.currentMem := by
  unfold flagIncomplete at h
  simp only [hs, Int.lt_irrefl, if_false] at h
  split at h
  · exact absurd h.symm Bool.false_ne_true
  · next hc =>
    refine ⟨h, Int64.le_iff_toInt_le.mpr ?_⟩
    have hle : ¬ v.currentMem < v.memory := fun hlt ↦ hc ⟨h, hlt⟩
    rw [Int64.lt_iff_toInt_lt] at hle
    omega

/-- A record that is ballooning after the first pass was so before it, or has just been
flagged incomplete. -/
theorem flagIncomplete_ballooning {v : VirtualMachineInfo}
    (h : (flagIncomplete v).ballooning = true) :
    v.ballooning = true ∨ (flagIncomplete v).incompleteBalloon = true := by
  unfold flagIncomplete at h ⊢
  split at h
  · exact .inl h
  · split at h
    · next hs hc => simp [hs, hc]
    · exact .inl h

/-- The first pass leaves the counter and the down phase. -/
theorem flagIncomplete_kept (v : VirtualMachineInfo) :
    (flagIncomplete v).needBalloonFlag = v.needBalloonFlag ∧
      (flagIncomplete v).ballooningDown = v.ballooningDown := by
  unfold flagIncomplete
  split
  · exact ⟨rfl, rfl⟩
  · split
    · exact ⟨rfl, rfl⟩
    · exact ⟨rfl, rfl⟩

/-- Both passes leave the down phase. -/
theorem prepared_ballooningDown (v : VirtualMachineInfo) :
    (prepared v).ballooningDown = v.ballooningDown :=
  (prepared_flags v).2.1.trans (flagIncomplete_kept v).2

/-- The two passes arm a counter that is off and leave every other counter. -/
theorem prepared_needBalloonFlag (v : VirtualMachineInfo) :
    (prepared v).needBalloonFlag = v.needBalloonFlag ∨
      v.needBalloonFlag = 0 ∧ (prepared v).needBalloonFlag = 1 := by
  unfold prepared notePressure recordPressure
  rw [← (flagIncomplete_kept v).1]
  split
  · split
    · exact .inl rfl
    · split
      · next hz =>
        split
        · exact .inr ⟨hz.1, rfl⟩
        · exact .inl rfl
      · exact .inl rfl
  · exact .inl rfl

/-- The passes before the main loop leave a ballooning record as it is. -/
theorem prepared_eq_self {v : VirtualMachineInfo} (h : v.ballooning = true) : prepared v = v := by
  unfold prepared notePressure recordPressure
  rw [flagIncomplete_eq_self h]
  simp [h]

/-- A ballooning record's turn starts from the record itself. -/
theorem turn_eq_of_ballooning {cfg : BalloonConfig} {v v' : VirtualMachineInfo} {ok : Bool}
    {cmds : Log} (hb : v.ballooning = true) (h : Outcome cfg v ok v' cmds) :
    turn cfg v ok = (v', cmds) := by
  rw [← prepared_eq_self hb] at h
  exact turn_eq_of_outcome h

/-! ### The kinds of commands -/

/-- A balloon-back has been started and not declared done. -/
def BackInProgress (v : VirtualMachineInfo) : Prop :=
  v.ballooning = true ∧ v.ballooningDown = false ∧ v.incompleteBalloon = false

/-- When a command from a call site may be sent for a record, and with which target: the
record is the one the cycle section finds. The exit command is not the cycle's. -/
def IsKind (cfg : BalloonConfig) (v : VirtualMachineInfo) (target : UInt64) : Site → Prop
  | .doBallooning =>
    target = (balloonTargetOf cfg v).toUInt64 ∧ 0 < balloonTargetOf cfg v ∧
      v.state = virDomainRunning ∧ checkVmMemoryStat v = 0 ∧ v.lockall = false ∧
      v.enableFpr = false ∧ v.ballooning = false ∧ v.memory ≤ v.currentMem
  | .step1 =>
    target = v.memory.toUInt64 - 2048 ∧ (flagIncomplete v).ballooning = true ∧
      ((flagIncomplete v).incompleteBalloon = true ∨ (flagIncomplete v).ballooningDown = true) ∧
      ¬ BackInProgress v
  | .step2 =>
    target = v.memory.toUInt64 ∧ v.ballooning = true ∧ v.ballooningDown = false ∧
      v.incompleteBalloon = false ∧ 1024 ≤ v.memory.toUInt64 - v.memstat.actualBalloon ∧
      v.memory.toUInt64 - v.memstat.actualBalloon ≤ 2048
  | .exit => False

/-- The kinds exclude each other. -/
theorem IsKind.unique {cfg : BalloonConfig} {v : VirtualMachineInfo} {t : UInt64} {k k' : Site}
    (h : IsKind cfg v t k) (h' : IsKind cfg v t k') : k = k' := by
  cases k with
  | doBallooning =>
    obtain ⟨_, _, _, _, _, _, hb, hm⟩ := h
    cases k' with
    | doBallooning => rfl
    | step1 =>
      have hb' := h'.2.1
      rw [flagIncomplete_of_full hm] at hb'
      exact absurd (hb.symm.trans hb') Bool.false_ne_true
    | step2 => exact absurd (hb.symm.trans h'.2.1) Bool.false_ne_true
    | exit => exact h'.elim
  | step1 =>
    obtain ⟨_, hb, _, hn⟩ := h
    cases k' with
    | doBallooning =>
      obtain ⟨_, _, _, _, _, _, hb', hm⟩ := h'
      rw [flagIncomplete_of_full hm] at hb
      exact absurd (hb'.symm.trans hb) Bool.false_ne_true
    | step1 => rfl
    | step2 => exact absurd ⟨h'.2.1, h'.2.2.1, h'.2.2.2.1⟩ hn
    | exit => exact h'.elim
  | step2 =>
    obtain ⟨_, hb, hd, hi, _⟩ := h
    cases k' with
    | doBallooning =>
      exact absurd (h'.2.2.2.2.2.2.1.symm.trans hb) Bool.false_ne_true
    | step1 => exact absurd ⟨hb, hd, hi⟩ h'.2.2.2
    | step2 => rfl
    | exit => exact h'.elim
  | exit => exact h.elim

/-- With a nonnegative memory the full target is the memory. -/
theorem fullTarget_of_nonneg {v : VirtualMachineInfo} (h : 0 ≤ v.memory) :
    fullTarget v = v.memory.toUInt64 := by
  unfold fullTarget
  rw [if_pos h]

/-- The full target does not depend on the balloon fields. -/
theorem fullTarget_withControl (v : VirtualMachineInfo) (c : Control) :
    fullTarget (v.withControl c) = fullTarget v := rfl

private theorem stepOne_kind {cfg : BalloonConfig} {v : VirtualMachineInfo} (hm : 0 ≤ v.memory)
    (hck : Checked (prepared v))
    (hdue : (prepared v).incompleteBalloon = true ∨ (prepared v).ballooningDown = true) :
    IsKind cfg v (stepOneTarget (prepared v)) .step1 := by
  obtain ⟨hb, hd, hi⟩ := prepared_flags v
  obtain ⟨c, hc⟩ := prepared_eq_withControl v
  rw [hd, hi] at hdue
  refine ⟨?_, hb ▸ hck.2.1, hdue, fun hback ↦ ?_⟩
  · unfold stepOneTarget
    rw [hc, fullTarget_withControl, fullTarget_of_nonneg hm]
    rfl
  · obtain ⟨hb', hd', hi'⟩ := hback
    rw [flagIncomplete_eq_self hb', hi', hd'] at hdue
    exact absurd hdue (by decide)

/-- Every command of an outcome is of the kind its call site stands for. -/
theorem turn_isKind {cfg : BalloonConfig} {v : VirtualMachineInfo} (hm : 0 ≤ v.memory)
    (ok : Bool) : ∀ c ∈ (turn cfg v ok).2, IsKind cfg v c.target c.site := by
  obtain ⟨hmem, hstate, hstat, _, _⟩ := prepared_reported v
  obtain ⟨hb, hd, hi⟩ := prepared_flags v
  have ho := turn_outcome cfg v ok
  generalize (turn cfg v ok).1 = v', (turn cfg v ok).2 = cmds at ho
  intro c hc
  cases ho with
  | down hev hcount hpos =>
    obtain rfl := List.mem_singleton.mp hc
    obtain ⟨he, hnb, hrun, hvalid⟩ := hev
    rw [checkVmMemoryStat_prepared] at hvalid
    obtain ⟨hl, hf⟩ := (eligible_prepared v).mp he
    obtain ⟨hidle, hfull⟩ := flagIncomplete_idle hvalid (hb ▸ hnb)
    rw [balloonTargetOf_prepared] at hpos ⊢
    exact ⟨rfl, hpos, hstate ▸ hrun, hvalid, hl, hf, hidle, hfull⟩
  | retried hck hinc =>
    obtain rfl := List.mem_singleton.mp hc
    exact stepOne_kind hm hck (.inl hinc)
  | reached hck _ hdown _ =>
    obtain rfl := List.mem_singleton.mp hc
    exact stepOne_kind hm hck (.inr hdown)
  | stopped hck _ hdown _ _ =>
    obtain rfl := List.mem_singleton.mp hc
    exact stepOne_kind hm hck (.inr hdown)
  | left hck hinc hdown hlow hres =>
    obtain rfl := List.mem_singleton.mp hc
    have hbv : v.ballooning = true := by
      rcases flagIncomplete_ballooning (hb ▸ hck.2.1) with h | h
      · exact h
      · exact absurd (hinc.symm.trans (hi.trans h)) Bool.false_ne_true
    have hself := flagIncomplete_eq_self hbv
    rw [hself] at hd hi
    unfold shortage at hlow hres
    rw [hmem, hstat] at hlow hres
    have htarget : fullTarget (prepared v) = v.memory.toUInt64 := by
      obtain ⟨e, he⟩ := prepared_eq_withControl v
      rw [he, fullTarget_withControl, fullTarget_of_nonneg hm]
    dsimp only
    rw [htarget]
    exact ⟨rfl, hbv, hd ▸ hdown, hi ▸ hinc, UInt64.not_lt.mp hlow, hres⟩
  | _ => cases hc

/-- A command with the full memory as its target goes to a record that has its memory or is
at most 2 MiB below it. -/
theorem IsKind.full {cfg : BalloonConfig} {v : VirtualMachineInfo} {t : UInt64} {k : Site}
    (h : IsKind cfg v t k) (hm : 0 ≤ v.memory) (ht : t = v.memory.toUInt64) :
    v.memory ≤ v.currentMem ∨ v.memory.toInt ≤ v.memstat.actualBalloon.toNat + 2048 := by
  cases k with
  | doBallooning => exact .inl h.2.2.2.2.2.2.2
  | step1 =>
    have hne : ∀ a : UInt64, a ≠ a - 2048 := by grind
    exact absurd (ht.symm.trans h.1) (hne _)
  | step2 =>
    have hle := UInt64.le_iff_toNat_le.mp h.2.2.2.2.2
    have hval := toNat_toUInt64 (Int64.le_iff_toInt_le.mp hm)
    rw [UInt64.toNat_sub] at hle
    have hlt := v.memstat.actualBalloon.toNat_lt
    have hlt' := v.memory.toUInt64.toNat_lt
    change _ ≤ 2048 at hle
    right
    omega
  | exit => exact h.elim

/-! ### When memory is reclaimed -/

/-- The floor of the target, 1 GiB, is positive. -/
theorem flooredTarget_pos (cfg : BalloonConfig) (v : VirtualMachineInfo) :
    1048576 ≤ (flooredTarget cfg v).toInt := by
  have hreserved : ballonTargetReservedKbytes.toInt = 1048576 := by decide
  unfold flooredTarget
  rw [toInt_maxI64, toInt_maxI64, toInt_maxI64, hreserved]
  omega

/-- There is a target exactly when a memory size is known. -/
theorem balloonTargetOf_pos_iff (cfg : BalloonConfig) (v : VirtualMachineInfo) :
    0 < balloonTargetOf cfg v ↔ v.memory ≠ 0 := by
  have hfloor := flooredTarget_pos cfg v
  have hfval := toNat_toUInt64 (a := flooredTarget cfg v) (by omega)
  have hflt := Int64.toInt_lt (flooredTarget cfg v)
  have hmin := toNat_minU64 (flooredTarget cfg v).toUInt64 v.memory.toUInt64
  have hval : (balloonTargetOf cfg v).toInt =
      (minU64 (flooredTarget cfg v).toUInt64 v.memory.toUInt64).toNat :=
    toInt_toInt64 (by omega)
  have hpos : 0 < balloonTargetOf cfg v ↔ 0 < (balloonTargetOf cfg v).toInt :=
    Int64.lt_iff_toInt_lt
  have hzero : v.memory = 0 ↔ v.memory.toInt = 0 := Int64.toInt_inj.symm
  rw [hpos, ne_eq, hzero, hval]
  by_cases hneg : v.memory.toInt < 0
  · have hbig := le_toNat_toUInt64 hneg
    omega
  · have hmval := toNat_toUInt64 (a := v.memory) (by omega)
    omega

/-- `DoBallooning` evaluates the eligible running records with valid statistics that are not
ballooning and have their full memory. -/
theorem evaluated_prepared_iff (v : VirtualMachineInfo) :
    Evaluated (prepared v) ↔ Eligible v ∧ v.state = virDomainRunning ∧ checkVmMemoryStat v = 0 ∧
      v.ballooning = false ∧ v.memory ≤ v.currentMem := by
  obtain ⟨_, hstate, _, _, _⟩ := prepared_reported v
  obtain ⟨hb, _, _⟩ := prepared_flags v
  constructor
  · rintro ⟨he, hnb, hrun, hvalid⟩
    rw [checkVmMemoryStat_prepared] at hvalid
    exact ⟨(eligible_prepared v).mp he, hstate ▸ hrun, hvalid,
      flagIncomplete_idle hvalid (hb ▸ hnb)⟩
  · rintro ⟨he, hrun, hvalid, hidle, hfull⟩
    refine ⟨(eligible_prepared v).mpr he, ?_, hstate.trans hrun,
      (checkVmMemoryStat_prepared v).trans hvalid⟩
    rw [hb, flagIncomplete_of_full hfull]
    exact hidle

/-- Memory is reclaimed from the record in this cycle: it is eligible and running, its
statistics are valid, it is not ballooning, it has its full memory, the usage is low and
the counter has reached its last step. -/
structure ReclaimDue (v : VirtualMachineInfo) : Prop where
  eligible : Eligible v
  running : v.state = virDomainRunning
  valid : checkVmMemoryStat v = 0
  idle : v.ballooning = false
  full : v.memory ≤ v.currentMem
  counted : 19 ≤ v.needBalloonFlag
  low : usageHigh v = false ∧ usageLow v = true
  sized : v.memory ≠ 0

private theorem countedFlag_trigger {v : VirtualMachineInfo} (hf : v.needBalloonFlag ≤ 19) :
    needBalloonCheckTimes ≤ countedFlag v ↔
      usageHigh v = false ∧ usageLow v = true ∧ 19 ≤ v.needBalloonFlag := by
  unfold needBalloonCheckTimes countedFlag
  cases usageHigh v with
  | true => simp
  | false =>
    cases usageLow v with
    | true =>
      simp only [Bool.false_eq_true, if_false, true_and]
      split
      · omega
      · omega
    | false =>
      simp only [Bool.false_eq_true, if_false, false_and, and_false, iff_false]
      omega

private theorem prepared_trigger {v : VirtualMachineInfo} (hf : v.needBalloonFlag ≤ 19) :
    needBalloonCheckTimes ≤ countedFlag (prepared v) ↔
      usageHigh v = false ∧ usageLow v = true ∧ 19 ≤ v.needBalloonFlag := by
  obtain ⟨hh, hl⟩ := usage_prepared v
  have hcases := prepared_needBalloonFlag v
  have hle : (prepared v).needBalloonFlag ≤ 19 := by omega
  rw [countedFlag_trigger hle, hh, hl]
  refine and_congr_right fun _ ↦ and_congr_right fun _ ↦ ?_
  omega

/-- A turn of a record whose counter is in range sends a down command exactly when memory
is due to be reclaimed from it. -/
theorem turn_reclaims_iff (cfg : BalloonConfig) {v : VirtualMachineInfo}
    (hf : v.needBalloonFlag ≤ 19) (ok : Bool) :
    (∃ c ∈ (turn cfg v ok).2, c.site = .doBallooning) ↔ ReclaimDue v := by
  constructor
  · rintro ⟨c, hc, hsite⟩
    obtain ⟨hev, hcount, hpos, _⟩ := (turn_outcome cfg v ok).reclaims hc hsite
    obtain ⟨he, hrun, hvalid, hidle, hfull⟩ := (evaluated_prepared_iff v).mp hev
    obtain ⟨hhigh, hlow, hcounted⟩ := (prepared_trigger hf).mp hcount
    rw [balloonTargetOf_prepared, balloonTargetOf_pos_iff] at hpos
    exact ⟨he, hrun, hvalid, hidle, hfull, hcounted, ⟨hhigh, hlow⟩, hpos⟩
  · intro h
    have hev : Evaluated (prepared v) :=
      (evaluated_prepared_iff v).mpr ⟨h.eligible, h.running, h.valid, h.idle, h.full⟩
    have htrig := (prepared_trigger hf).mpr ⟨h.low.1, h.low.2, h.counted⟩
    have hpos : 0 < balloonTargetOf cfg (prepared v) := by
      rw [balloonTargetOf_prepared, balloonTargetOf_pos_iff]
      exact h.sized
    rw [turn_eq_of_outcome (.down hev htrig hpos)]
    exact ⟨_, List.mem_singleton_self _, rfl⟩

/-! ### When a command asks for less than the memory -/

/-- The command's target is below the memory of its VM. -/
def Command.Below (c : Command) : Prop := (c.target.toNat : Int) < c.vm.memory.toInt

instance (c : Command) : Decidable c.Below :=
  inferInstanceAs (Decidable ((c.target.toNat : Int) < c.vm.memory.toInt))

/-- The step-1 command is sent in this cycle: the record is eligible with a reported balloon
size, and it is incomplete or its down phase has ended. -/
def StepOneDue (v : VirtualMachineInfo) : Prop :=
  Eligible v ∧ v.memstat.actualBalloon ≠ 0 ∧
    ((flagIncomplete v).ballooning = true ∧ (flagIncomplete v).incompleteBalloon = true ∨
      v.ballooning = true ∧ v.ballooningDown = true ∧
        (atTarget v = true ∨ tooSlow (recordSample v) = true))

/-- The cycle sends the record a command for less than its memory. -/
def SqueezeDue (cfg : BalloonConfig) (v : VirtualMachineInfo) : Prop :=
  ReclaimDue v ∧ ((balloonTargetOf cfg v).toUInt64.toNat : Int) < v.memory.toInt ∨
    StepOneDue v ∧ 2048 ≤ v.memory.toInt

/-- A checked record that is complete was ballooning before the passes. -/
theorem ballooning_of_checked {v : VirtualMachineInfo} (hck : Checked (prepared v))
    (hi : (prepared v).incompleteBalloon = false) : v.ballooning = true := by
  obtain ⟨hb, _, hpi⟩ := prepared_flags v
  rcases flagIncomplete_ballooning (hb ▸ hck.2.1) with h | h
  · exact h
  · exact absurd (hi.symm.trans (hpi.trans h)) Bool.false_ne_true

/-- A turn sends the step-1 command exactly when it is due. -/
theorem turn_stepOne_iff (cfg : BalloonConfig) (v : VirtualMachineInfo) (ok : Bool) :
    (∃ c ∈ (turn cfg v ok).2, c.site = .step1) ↔ StepOneDue v := by
  obtain ⟨_, _, hstat, _, _⟩ := prepared_reported v
  obtain ⟨hb, hd, hi⟩ := prepared_flags v
  constructor
  · rintro ⟨c, hc, hsite⟩
    have ho := turn_outcome cfg v ok
    generalize (turn cfg v ok).1 = v', (turn cfg v ok).2 = cmds at ho hc
    cases ho with
    | down => cases List.mem_singleton.mp hc; cases hsite
    | left => cases List.mem_singleton.mp hc; cases hsite
    | retried hck hinc =>
      exact ⟨(eligible_prepared v).mp hck.1, hstat ▸ hck.2.2,
        .inl ⟨hb ▸ hck.2.1, hi ▸ hinc⟩⟩
    | reached hck hinc hdown hat =>
      have hbv := ballooning_of_checked hck hinc
      rw [prepared_eq_self hbv] at hck hdown hat
      exact ⟨hck.1, hck.2.2, .inr ⟨hbv, hdown, .inl hat⟩⟩
    | stopped hck hinc hdown _ hslow =>
      have hbv := ballooning_of_checked hck hinc
      rw [prepared_eq_self hbv] at hck hdown hslow
      exact ⟨hck.1, hck.2.2, .inr ⟨hbv, hdown, .inr hslow⟩⟩
    | _ => cases hc
  · rintro ⟨he, ha, hdue⟩
    have hck : Checked (prepared v) := by
      refine ⟨(eligible_prepared v).mpr he, ?_, hstat.symm ▸ ha⟩
      rcases hdue with ⟨hfb, _⟩ | ⟨hbv, _⟩
      · exact hb.trans hfb
      · rwa [prepared_eq_self hbv]
    have hdue' : (prepared v).incompleteBalloon = true ∨ (prepared v).ballooningDown = true ∧
        (atTarget (prepared v) = true ∨ tooSlow (recordSample (prepared v)) = true) := by
      rcases hdue with ⟨_, hinc⟩ | ⟨hbv, hdown, hend⟩
      · exact .inl (hi.trans hinc)
      · rw [prepared_eq_self hbv]
        exact .inr ⟨hdown, hend⟩
    obtain ⟨w, _, ho⟩ := exists_stepOne_outcome cfg ok hck hdue'
    rw [turn_eq_of_outcome ho]
    exact ⟨_, List.mem_singleton_self _, rfl⟩

/-- The target that a call site sends. -/
def siteTarget (cfg : BalloonConfig) (v : VirtualMachineInfo) : Site → UInt64
  | .doBallooning => (balloonTargetOf cfg v).toUInt64
  | .step1 => stepOneTarget v
  | .step2 => fullTarget v
  | .exit => fullTarget v

/-- Every command of a turn carries the target of its call site and the VM's memory. -/
theorem turn_target {cfg : BalloonConfig} {v : VirtualMachineInfo} {ok : Bool} {c : Command}
    (h : c ∈ (turn cfg v ok).2) :
    c.target = siteTarget cfg v c.site ∧ c.vm.memory = v.memory := by
  obtain ⟨d, hd⟩ := turn_command_vm h
  refine ⟨?_, by rw [hd]; rfl⟩
  obtain ⟨e, he⟩ := prepared_eq_withControl v
  have ho := turn_outcome cfg v ok
  generalize (turn cfg v ok).1 = v', (turn cfg v ok).2 = cmds at ho h
  rw [he] at ho
  cases ho with
  | down => cases List.mem_singleton.mp h; rfl
  | retried => cases List.mem_singleton.mp h; rfl
  | reached => cases List.mem_singleton.mp h; rfl
  | stopped => cases List.mem_singleton.mp h; rfl
  | left => cases List.mem_singleton.mp h; rfl
  | _ => cases h

/-- The full target is never below the memory. -/
theorem fullTarget_not_below (v : VirtualMachineInfo) :
    ¬ ((fullTarget v).toNat : Int) < v.memory.toInt := by
  by_cases hm : 0 ≤ v.memory
  · rw [fullTarget_of_nonneg hm, toNat_toUInt64 (Int64.le_iff_toInt_le.mp hm)]
    exact Int.lt_irrefl _
  · rw [Int64.le_iff_toInt_le] at hm
    change ¬ 0 ≤ v.memory.toInt at hm
    omega

/-- The step-1 target is below the memory exactly from 2 MiB on: it wraps below that. -/
theorem stepOneTarget_below_iff (v : VirtualMachineInfo) :
    ((stepOneTarget v).toNat : Int) < v.memory.toInt ↔ 2048 ≤ v.memory.toInt := by
  have hsub : (stepOneTarget v).toNat = (2 ^ 64 - 2048 + (fullTarget v).toNat) % 2 ^ 64 :=
    UInt64.toNat_sub ..
  by_cases hm : 0 ≤ v.memory
  · have hval := toNat_toUInt64 (Int64.le_iff_toInt_le.mp hm)
    have hlt := v.memory.toInt_lt
    rw [hsub, fullTarget_of_nonneg hm]
    omega
  · rw [Int64.le_iff_toInt_le] at hm
    change ¬ 0 ≤ v.memory.toInt at hm
    omega

/-- A turn of a record whose counter is in range sends a command for less than the memory
exactly when one is due. -/
theorem turn_squeezes_iff (cfg : BalloonConfig) {v : VirtualMachineInfo}
    (hf : v.needBalloonFlag ≤ 19) (ok : Bool) :
    (∃ c ∈ (turn cfg v ok).2, c.Below) ↔ SqueezeDue cfg v := by
  constructor
  · rintro ⟨c, hc, hbelow⟩
    obtain ⟨htarget, hmem⟩ := turn_target hc
    unfold Command.Below at hbelow
    rw [htarget, hmem] at hbelow
    cases hsite : c.site with
    | doBallooning =>
      rw [hsite] at hbelow
      exact .inl ⟨(turn_reclaims_iff cfg hf ok).mp ⟨c, hc, hsite⟩, hbelow⟩
    | step1 =>
      rw [hsite] at hbelow
      exact .inr ⟨(turn_stepOne_iff cfg v ok).mp ⟨c, hc, hsite⟩,
        (stepOneTarget_below_iff v).mp hbelow⟩
    | step2 =>
      rw [hsite] at hbelow
      exact absurd hbelow (fullTarget_not_below v)
    | exit =>
      rw [hsite] at hbelow
      exact absurd hbelow (fullTarget_not_below v)
  · rintro (⟨hdue, hbelow⟩ | ⟨hdue, hbelow⟩)
    · obtain ⟨c, hc, hsite⟩ := (turn_reclaims_iff cfg hf ok).mpr hdue
      obtain ⟨htarget, hmem⟩ := turn_target hc
      refine ⟨c, hc, ?_⟩
      unfold Command.Below
      rw [htarget, hmem, hsite]
      exact hbelow
    · obtain ⟨c, hc, hsite⟩ := (turn_stepOne_iff cfg v ok).mpr hdue
      obtain ⟨htarget, hmem⟩ := turn_target hc
      refine ⟨c, hc, ?_⟩
      unfold Command.Below
      rw [htarget, hmem, hsite]
      exact (stepOneTarget_below_iff v).mpr hbelow

/-! ### When a command exceeds the memory -/

/-- The command's target is at most the memory of its VM, if that is not negative. -/
def Command.Within (c : Command) : Prop :=
  0 ≤ c.vm.memory.toInt → (c.target.toNat : Int) ≤ c.vm.memory.toInt

instance (c : Command) : Decidable c.Within :=
  inferInstanceAs (Decidable (0 ≤ c.vm.memory.toInt → (c.target.toNat : Int) ≤ c.vm.memory.toInt))

/-- Step 1 is due for a record whose memory is smaller than the 2 MiB it holds back. -/
def ReserveMissing (v : VirtualMachineInfo) : Prop :=
  StepOneDue v ∧ 0 ≤ v.memory.toInt ∧ v.memory.toInt < 2048

/-- The down target is at most the memory. -/
theorem balloonTargetOf_le_memory (cfg : BalloonConfig) {v : VirtualMachineInfo}
    (hm : 0 ≤ v.memory.toInt) :
    ((balloonTargetOf cfg v).toUInt64.toNat : Int) ≤ v.memory.toInt := by
  have hmem := toNat_toUInt64 hm
  have hmin := toNat_minU64 (flooredTarget cfg v).toUInt64 v.memory.toUInt64
  unfold balloonTargetOf
  rw [UInt64.toUInt64_toInt64]
  omega

/-- The full target is the memory. -/
theorem toNat_fullTarget {v : VirtualMachineInfo} (hm : 0 ≤ v.memory.toInt) :
    ((fullTarget v).toNat : Int) = v.memory.toInt := by
  rw [fullTarget_of_nonneg (Int64.le_iff_toInt_le.mpr hm)]
  exact toNat_toUInt64 hm

/-- The step-1 target is at most the memory exactly from 2 MiB on. -/
theorem stepOneTarget_le_iff {v : VirtualMachineInfo} (hm : 0 ≤ v.memory.toInt) :
    ((stepOneTarget v).toNat : Int) ≤ v.memory.toInt ↔ 2048 ≤ v.memory.toInt := by
  have hsub : (stepOneTarget v).toNat = (2 ^ 64 - 2048 + (fullTarget v).toNat) % 2 ^ 64 :=
    UInt64.toNat_sub ..
  have hfull := toNat_fullTarget hm
  have hlt := v.memory.toInt_lt
  omega

/-- A turn sends a command for more than the memory exactly when step 1 is due without the
reserve. -/
theorem turn_exceeds_iff (cfg : BalloonConfig) (v : VirtualMachineInfo) (ok : Bool) :
    (∃ c ∈ (turn cfg v ok).2, ¬ c.Within) ↔ ReserveMissing v := by
  constructor
  · rintro ⟨c, hc, hnot⟩
    obtain ⟨htarget, hmem⟩ := turn_target hc
    unfold Command.Within at hnot
    rw [htarget, hmem, Classical.not_imp] at hnot
    obtain ⟨hm, hexceeds⟩ := hnot
    cases hsite : c.site with
    | doBallooning =>
      rw [hsite] at hexceeds
      exact absurd (balloonTargetOf_le_memory cfg hm) hexceeds
    | step1 =>
      rw [hsite] at hexceeds
      refine ⟨(turn_stepOne_iff cfg v ok).mp ⟨c, hc, hsite⟩, hm, ?_⟩
      exact Int.not_le.mp fun hle ↦ hexceeds ((stepOneTarget_le_iff hm).mpr hle)
    | step2 =>
      rw [hsite] at hexceeds
      exact absurd (Int.le_of_eq (toNat_fullTarget hm)) hexceeds
    | exit =>
      rw [hsite] at hexceeds
      exact absurd (Int.le_of_eq (toNat_fullTarget hm)) hexceeds
  · rintro ⟨hdue, hm, hsmall⟩
    obtain ⟨c, hc, hsite⟩ := (turn_stepOne_iff cfg v ok).mpr hdue
    obtain ⟨htarget, hmem⟩ := turn_target hc
    refine ⟨c, hc, fun hwithin ↦ ?_⟩
    unfold Command.Within at hwithin
    rw [htarget, hmem, hsite] at hwithin
    have hroom := (stepOneTarget_le_iff hm).mp (hwithin hm)
    omega

end Memlink
