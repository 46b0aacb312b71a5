import Memlink.Balloon.Commands

/-!
# Balloon episodes

A record that is ballooning is on its way back to full memory: a squeezed record gets the
step-1 command, then the step-2 command, then the balloon-back is declared done. A
balloon-back ends in `BalloonCheck` (`memlink_core.c:184–191`), on a sampled statistic.
-/

namespace Memlink

/-- The full target is a function of the memory. -/
theorem fullTarget_congr {v w : VirtualMachineInfo} (h : w.memory = v.memory) :
    fullTarget w = fullTarget v := by
  unfold fullTarget
  rw [h]

/-- The step-1 target is a function of the memory. -/
theorem stepOneTarget_congr {v w : VirtualMachineInfo} (h : w.memory = v.memory) :
    stepOneTarget w = stepOneTarget v := by
  unfold stepOneTarget
  rw [fullTarget_congr h]

/-- The two steps of a balloon-back have different targets. -/
theorem stepOneTarget_ne (v : VirtualMachineInfo) : stepOneTarget v ≠ fullTarget v := by
  have hne : ∀ a : UInt64, a - 2048 ≠ a := by grind
  exact hne (fullTarget v)

/-! ### The commands of a balloon-back -/

/-- During a balloon-back the last accepted command is one of its two steps. -/
def BackInv (v : VirtualMachineInfo) (sent : Log) : Prop :=
  BackInProgress v →
    lastAccepted sent = some (stepOneTarget v) ∨ lastAccepted sent = some (fullTarget v)

private theorem backInv_of_not {v : VirtualMachineInfo} {sent : Log}
    (h : v.ballooning = false ∨ v.ballooningDown = true ∨ v.incompleteBalloon = true) :
    BackInv v sent := by
  rintro ⟨hb, hd, hi⟩
  simp [hb, hd, hi] at h

private theorem backInv_congr {v w : VirtualMachineInfo} {sent : Log} (h : BackInv v sent)
    (hm : w.memory = v.memory) (hback : BackInProgress w → BackInProgress v) :
    BackInv w sent := by
  intro hw
  rw [fullTarget_congr hm, stepOneTarget_congr hm]
  exact h (hback hw)

private theorem backInv_prepared {v : VirtualMachineInfo} {sent : Log} (h : BackInv v sent) :
    BackInv (prepared v) sent := by
  cases hb : v.ballooning with
  | true => rwa [prepared_eq_self hb]
  | false =>
    obtain ⟨hpb, _, hpi⟩ := prepared_flags v
    cases hf : (flagIncomplete v).ballooning with
    | false => exact backInv_of_not (.inl (hpb.trans hf))
    | true =>
      rcases flagIncomplete_ballooning hf with h' | h'
      · exact absurd (hb.symm.trans h') Bool.false_ne_true
      · exact backInv_of_not (.inr (.inr (hpi.trans h')))

private theorem backInv_stepOne {v w : VirtualMachineInfo} {sent : Log} (ok : Bool)
    (hm : w.memory = v.memory) :
    BackInv (stepOneAfter w ok) (⟨w, .step1, stepOneTarget v, ok⟩ :: sent) := by
  cases ok with
  | true =>
    intro _
    left
    exact congrArg some (stepOneTarget_congr (v := v) hm).symm
  | false => exact backInv_of_not (.inr (.inr rfl))

private theorem backInv_outcome {cfg : BalloonConfig} {v v' : VirtualMachineInfo} {ok : Bool}
    {cmds sent : Log} (h : BackInv v sent) (ho : Outcome cfg v ok v' cmds) :
    BackInv v' (cmds ++ sent) := by
  cases ho with
  | skipped => exact h
  | counted hev => exact backInv_of_not (.inl hev.2.1)
  | untargeted hev => exact backInv_of_not (.inl hev.2.1)
  | down hev =>
    cases ok with
    | true => exact backInv_of_not (.inr (.inl rfl))
    | false => exact backInv_of_not (.inl hev.2.1)
  | retried => exact backInv_stepOne ok rfl
  | reached => exact backInv_stepOne ok rfl
  | stopped => exact backInv_stepOne ok rfl
  | inflating _ _ hd => exact backInv_of_not (.inr (.inl hd))
  | finished => exact backInv_of_not (.inl rfl)
  | left =>
    cases ok with
    | true =>
      intro _
      exact .inr rfl
    | false => exact h
  | deflating => exact h

private theorem backInv_step {cfg : BalloonConfig} {t : Tracked} {a : VmAct}
    (hm : (t.step cfg a).vm.memory = t.vm.memory) (h : BackInv t.vm t.sent) :
    BackInv (t.step cfg a).vm (t.step cfg a).sent := by
  cases a with
  | report r => exact backInv_congr h hm id
  | turn ok => exact backInv_outcome (backInv_prepared h) (turn_outcome cfg t.vm ok)
  | setRef n => exact backInv_congr h hm id

/-- With a constant memory, every balloon-back of a life follows its two steps. -/
theorem Life.backInv {cfg : BalloonConfig} {M : Int64} {t : Tracked}
    (h : Life cfg (fun v ↦ v.memory = M) t) : BackInv t.vm t.sent := by
  refine h.invariant (fun v hv _ ↦ ?_) (fun t a hp hp' hi ↦ backInv_step (hp'.trans hp.symm) hi)
  obtain ⟨addr, domid, name, win, r, rfl⟩ := hv
  exact backInv_of_not (.inl rfl)

/-! ### Declaring a balloon-back done -/

/-- The turn declares the record's balloon-back done: its sampled balloon size is less than
1 MiB below its memory. -/
structure Finishing (v : VirtualMachineInfo) : Prop where
  eligible : Eligible v
  back : BackInProgress v
  reported : v.memstat.actualBalloon ≠ 0
  near : shortage v < lowWaterMark

instance (v : VirtualMachineInfo) : Decidable (Finishing v) :=
  decidable_of_iff
    ((v.lockall = false ∧ v.enableFpr = false) ∧
      (v.ballooning = true ∧ v.ballooningDown = false ∧ v.incompleteBalloon = false) ∧
      v.memstat.actualBalloon ≠ 0 ∧ shortage v < lowWaterMark)
    ⟨fun h ↦ ⟨h.1, h.2.1, h.2.2.1, h.2.2.2⟩,
      fun h ↦ ⟨h.eligible, h.back, h.reported, h.near⟩⟩

/-- A finishing record stops ballooning in its turn, and no command is sent. -/
theorem turn_finishing (cfg : BalloonConfig) {v : VirtualMachineInfo} (h : Finishing v)
    (ok : Bool) : turn cfg v ok = ({ v with ballooning := false }, []) := by
  obtain ⟨he, ⟨hb, hd, hi⟩, ha, hlow⟩ := h
  exact turn_eq_of_ballooning hb (.finished ⟨he, hb, ha⟩ hi hd hlow)

/-- A ballooning record stops ballooning in its turn exactly when it is finishing. -/
theorem turn_finishes_iff (cfg : BalloonConfig) {v : VirtualMachineInfo}
    (hb : v.ballooning = true) (ok : Bool) :
    (turn cfg v ok).1.ballooning = false ↔ Finishing v := by
  constructor
  · intro hb'
    have ho := turn_outcome cfg v ok
    rw [prepared_eq_self hb] at ho
    generalize (turn cfg v ok).1 = v', (turn cfg v ok).2 = cmds at ho hb'
    have hne : ¬ v.ballooning = false := by simp [hb]
    cases ho with
    | finished hck hi hd hlow => exact ⟨hck.1, ⟨hb, hd, hi⟩, hck.2.2, hlow⟩
    | down hev => exact absurd hev.2.1 hne
    | retried => cases ok <;> exact absurd hb' hne
    | reached => cases ok <;> exact absurd hb' hne
    | stopped => cases ok <;> exact absurd hb' hne
    | _ => exact absurd hb' hne
  · intro h
    rw [turn_finishing cfg h]

/-- A record for which a command was just accepted is ballooning. -/
theorem turn_accepted_ballooning {cfg : BalloonConfig} {v : VirtualMachineInfo} {ok : Bool}
    {c : Command} (hc : c ∈ (turn cfg v ok).2) (hacc : c.accepted = true) :
    (turn cfg v ok).1.ballooning = true := by
  obtain rfl : ok = true := ((turn_commands cfg v ok).2 c hc).2.2.symm.trans hacc
  have ho := turn_outcome cfg v true
  generalize (turn cfg v true).1 = v', (turn cfg v true).2 = cmds, prepared v = w at ho hc ⊢
  cases ho with
  | down => rfl
  | retried hck => exact hck.2.1
  | reached hck => exact hck.2.1
  | stopped hck => exact hck.2.1
  | left hck => exact hck.2.1
  | _ => cases hc

/-! ### Staying done -/

/-- The first pass flags an idle record: its statistics are valid and it is below its memory. -/
def ReflagDue (v : VirtualMachineInfo) : Prop :=
  checkVmMemoryStat v = 0 ∧ v.currentMem < v.memory

instance (v : VirtualMachineInfo) : Decidable (ReflagDue v) :=
  inferInstanceAs (Decidable (checkVmMemoryStat v = 0 ∧ v.currentMem < v.memory))

/-- A turn leaves the record idle and sends no balloon-back command. -/
def LeavesIdle (cfg : BalloonConfig) (v : VirtualMachineInfo) (ok : Bool) : Prop :=
  (turn cfg v ok).1.ballooning = false ∧ (turn cfg v ok).1.incompleteBalloon = false ∧
    ∀ c ∈ (turn cfg v ok).2, c.site ≠ .step1 ∧ c.site ≠ .step2

private theorem leavesIdle_of_not_due {cfg : BalloonConfig} {v : VirtualMachineInfo}
    (hf : v.needBalloonFlag ≤ 19) (hb : v.ballooning = false)
    (hi : v.incompleteBalloon = false) (hnr : ¬ ReflagDue v) (hnd : ¬ ReclaimDue v)
    (ok : Bool) : LeavesIdle cfg v ok := by
  have hself : flagIncomplete v = v := by
    unfold flagIncomplete
    split
    · rfl
    · next hs =>
      rw [if_neg fun hc ↦ hnr ⟨?_, hc.2⟩]
      rcases checkVmMemoryStat_cases v with h | h
      · exact h
      · exact absurd (h ▸ by decide) hs
  obtain ⟨hpb, _, hpi⟩ := prepared_flags v
  rw [hself] at hpb hpi
  have hnc : ¬ Checked (prepared v) := fun h ↦
    Bool.false_ne_true (hb.symm.trans (hpb.symm.trans h.2.1))
  have hnone : ∀ c ∈ (turn cfg v ok).2, c.site ≠ .doBallooning := fun c hc hsite ↦
    hnd ((turn_reclaims_iff cfg hf ok).mp ⟨c, hc, hsite⟩)
  have ho := turn_outcome cfg v ok
  unfold LeavesIdle
  generalize (turn cfg v ok).1 = v', (turn cfg v ok).2 = cmds, prepared v = w
    at ho hnone hpb hpi hnc ⊢
  cases ho with
  | skipped => exact ⟨hpb.trans hb, hpi.trans hi, fun _ hc ↦ absurd hc List.not_mem_nil⟩
  | counted => exact ⟨hpb.trans hb, hpi.trans hi, fun _ hc ↦ absurd hc List.not_mem_nil⟩
  | untargeted => exact ⟨hpb.trans hb, hpi.trans hi, fun _ hc ↦ absurd hc List.not_mem_nil⟩
  | down => exact absurd rfl (hnone _ List.mem_cons_self)
  | retried h => exact absurd h hnc
  | reached h => exact absurd h hnc
  | stopped h => exact absurd h hnc
  | inflating h => exact absurd h hnc
  | finished h => exact absurd h hnc
  | left h => exact absurd h hnc
  | deflating h => exact absurd h hnc

/-- An eligible idle record stays so under every answer of libvirt exactly when it is due
neither for a new flag nor for a reclaim. -/
theorem leavesIdle_iff (cfg : BalloonConfig) {v : VirtualMachineInfo}
    (hf : v.needBalloonFlag ≤ 19) (he : Eligible v) (hb : v.ballooning = false)
    (hi : v.incompleteBalloon = false) :
    (∀ ok, LeavesIdle cfg v ok) ↔ ¬ ReflagDue v ∧ ¬ ReclaimDue v := by
  constructor
  · intro h
    refine ⟨fun ⟨hs, hlt⟩ ↦ ?_, fun hdue ↦ ?_⟩
    · have hflag : flagIncomplete v = { v with ballooning := true, incompleteBalloon := true } := by
        unfold flagIncomplete
        rw [if_neg (by omega), if_pos ⟨hb, hlt⟩]
      have ha : v.memstat.actualBalloon ≠ 0 := by
        intro hz
        simp [checkVmMemoryStat, hz] at hs
      have hstep : StepOneDue v := ⟨he, ha, .inl (by rw [hflag]; exact ⟨rfl, rfl⟩)⟩
      obtain ⟨c, hc, hsite⟩ := (turn_stepOne_iff cfg v true).mpr hstep
      exact ((h true).2.2 c hc).1 hsite
    · obtain ⟨c, hc, _⟩ := (turn_reclaims_iff cfg hf true).mpr hdue
      have hacc := ((turn_commands cfg v true).2 c hc).2.2
      exact Bool.false_ne_true ((h true).1.symm.trans (turn_accepted_ballooning hc hacc))
  · rintro ⟨hnr, hnd⟩ ok
    exact leavesIdle_of_not_due hf hb hi hnr hnd ok

/-! ### Convergence -/

/-- The stages of an episode, by the number of turns left until the record is back at full
memory, when libvirt accepts every command and the guest follows. -/
inductive Stage (v : VirtualMachineInfo) (sent : Log) : Nat → Prop where
  | squeezed : v.ballooning = true → v.incompleteBalloon = true ∨ v.ballooningDown = true →
      (v.ballooningDown = true → lastAccepted sent = some v.balloonTarget.toUInt64) →
      Stage v sent 3
  | stepOne : BackInProgress v → lastAccepted sent = some (stepOneTarget v) → Stage v sent 2
  | stepTwo : BackInProgress v → lastAccepted sent = some (fullTarget v) → Stage v sent 1
  | done : v.ballooning = false → lastAccepted sent = some (fullTarget v) → Stage v sent 0

/-- Every ballooning record is in one of the stages. -/
theorem exists_stage {v : VirtualMachineInfo} {sent : Log} (h : BalloonInv v sent)
    (hback : BackInv v sent) (hb : v.ballooning = true) : ∃ k ≤ 3, Stage v sent k := by
  by_cases hdue : v.incompleteBalloon = true ∨ v.ballooningDown = true
  · exact ⟨3, Nat.le_refl 3, .squeezed hb hdue fun hd ↦ (h.down hd).2⟩
  · have hback' : BackInProgress v := by
      refine ⟨hb, ?_, ?_⟩
      · cases hd : v.ballooningDown with
        | false => rfl
        | true => exact absurd (.inr hd) hdue
      · cases hi : v.incompleteBalloon with
        | false => rfl
        | true => exact absurd (.inl hi) hdue
    rcases hback hback' with hl | hl
    · exact ⟨2, by decide, .stepOne hback' hl⟩
    · exact ⟨1, by decide, .stepTwo hback' hl⟩

/-- The stage only depends on the balloon fields and the memory. -/
theorem Stage.congr {v w : VirtualMachineInfo} {sent : Log} {k : Nat} (h : Stage v sent k)
    (hc : w.control = v.control) (hm : w.memory = v.memory) : Stage w sent k := by
  have hb : w.ballooning = v.ballooning := congrArg Control.ballooning hc
  have hd : w.ballooningDown = v.ballooningDown := congrArg Control.ballooningDown hc
  have hi : w.incompleteBalloon = v.incompleteBalloon := congrArg Control.incompleteBalloon hc
  have ht : w.balloonTarget = v.balloonTarget := congrArg Control.balloonTarget hc
  have hback : BackInProgress w ↔ BackInProgress v := by
    unfold BackInProgress
    rw [hb, hd, hi]
  cases h with
  | squeezed h1 h2 h3 => exact .squeezed (hb ▸ h1) (hd ▸ hi ▸ h2) (hd ▸ ht ▸ h3)
  | stepOne h1 h2 => exact .stepOne (hback.mpr h1) (stepOneTarget_congr hm ▸ h2)
  | stepTwo h1 h2 => exact .stepTwo (hback.mpr h1) (fullTarget_congr hm ▸ h2)
  | done h1 h2 => exact .done (hb ▸ h1) (fullTarget_congr hm ▸ h2)

/-- A record whose balloon size is reported as the last accepted target, or as anything if
there is none. -/
structure Follows (v : VirtualMachineInfo) (sent : Log) : Prop where
  eligible : Eligible v
  reported : v.memstat.actualBalloon ≠ 0
  followed : v.memstat.actualBalloon = (lastAccepted sent).getD v.memstat.actualBalloon

instance (v : VirtualMachineInfo) (sent : Log) : Decidable (Follows v sent) :=
  decidable_of_iff
    ((v.lockall = false ∧ v.enableFpr = false) ∧ v.memstat.actualBalloon ≠ 0 ∧
      v.memstat.actualBalloon = (lastAccepted sent).getD v.memstat.actualBalloon)
    ⟨fun h ↦ ⟨h.1, h.2.1, h.2.2⟩, fun h ↦ ⟨h.eligible, h.reported, h.followed⟩⟩

private theorem stage_squeezed {cfg : BalloonConfig} {v : VirtualMachineInfo} {sent : Log}
    (hf : Follows v sent) (hb : v.ballooning = true)
    (hdue : v.incompleteBalloon = true ∨ v.ballooningDown = true)
    (hdown : v.ballooningDown = true → lastAccepted sent = some v.balloonTarget.toUInt64) :
    Stage (turn cfg v true).1 ((turn cfg v true).2 ++ sent) 2 := by
  have hat : v.ballooningDown = true → atTarget v = true := by
    intro hd
    have hval : v.memstat.actualBalloon = v.balloonTarget.toUInt64 := by
      rw [hf.followed, hdown hd]
      rfl
    unfold atTarget
    rw [hval, UInt64.sub_self]
    decide
  obtain ⟨w, hw, ho⟩ := exists_stepOne_outcome cfg true ⟨hf.eligible, hb, hf.reported⟩
    (hdue.imp_right fun hd ↦ ⟨hd, .inl (hat hd)⟩)
  rw [turn_eq_of_ballooning hb ho]
  rcases hw with rfl | rfl
  · exact .stepOne ⟨hb, rfl, rfl⟩ rfl
  · exact .stepOne ⟨hb, rfl, rfl⟩ rfl

private theorem stage_stepOne {cfg : BalloonConfig} {v : VirtualMachineInfo} {sent : Log}
    (hf : Follows v sent) (hm : 0 ≤ v.memory) (hback : BackInProgress v)
    (hlast : lastAccepted sent = some (stepOneTarget v)) :
    Stage (turn cfg v true).1 ((turn cfg v true).2 ++ sent) 1 := by
  obtain ⟨hb, hd, hi⟩ := hback
  -- The sampled size is the step-1 target, which is exactly 2 MiB below the memory.
  have hshort : shortage v = 2048 := by
    have hval : v.memstat.actualBalloon = v.memory.toUInt64 - 2048 := by
      rw [hf.followed, hlast, ← fullTarget_of_nonneg hm]
      rfl
    have hsub : ∀ a : UInt64, a - (a - 2048) = 2048 := by grind
    unfold shortage
    rw [hval, hsub]
  have hhigh : ¬ shortage v < lowWaterMark := by
    rw [hshort]
    decide
  have hlow : shortage v ≤ balloonBackReservedSizeKb := by
    rw [hshort]
    decide
  rw [turn_eq_of_ballooning hb (.left ⟨hf.eligible, hb, hf.reported⟩ hi hd hhigh hlow)]
  exact .stepTwo ⟨hb, hd, hi⟩ rfl

private theorem stage_stepTwo {cfg : BalloonConfig} {v : VirtualMachineInfo} {sent : Log}
    (hf : Follows v sent) (hm : 0 ≤ v.memory) (hback : BackInProgress v)
    (hlast : lastAccepted sent = some (fullTarget v)) :
    Stage (turn cfg v true).1 ((turn cfg v true).2 ++ sent) 0 := by
  have hnear : shortage v < lowWaterMark := by
    have hval : v.memstat.actualBalloon = v.memory.toUInt64 := by
      rw [hf.followed, hlast, ← fullTarget_of_nonneg hm]
      rfl
    unfold shortage
    rw [hval, UInt64.sub_self]
    decide
  rw [turn_finishing cfg ⟨hf.eligible, hback, hf.reported, hnear⟩]
  exact .done rfl hlast

/-- An accepted turn of a record that follows its commands moves the episode on by one. -/
theorem Stage.turn {cfg : BalloonConfig} {v : VirtualMachineInfo} {sent : Log} {k : Nat}
    (h : Stage v sent (k + 1)) (hf : Follows v sent) (hm : 0 ≤ v.memory) :
    Stage (turn cfg v true).1 ((turn cfg v true).2 ++ sent) k := by
  cases h with
  | squeezed hb hdue hdown => exact stage_squeezed hf hb hdue hdown
  | stepOne hback hlast => exact stage_stepOne hf hm hback hlast
  | stepTwo hback hlast => exact stage_stepTwo hf hm hback hlast

end Memlink
