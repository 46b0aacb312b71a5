import Memlink.Balloon.Life

/-!
# The balloon record invariant

How the balloon fields of a record fit together, and with the commands libvirt accepted for
it, at the end of every locked section.
-/

namespace Memlink

/-- The balloon fields of a record, given the commands sent for it, newest first. -/
structure BalloonInv (v : VirtualMachineInfo) (sent : Log) : Prop where
  idle : v.ballooning = false → v.ballooningDown = false ∧ v.incompleteBalloon = false
  samples : v.ballooningDown = false → v.currentActualBalloon = (0, 0) ∧ v.balloonI = 0
  index : v.balloonI = 0 ∨ v.balloonI = 1
  flag : 0 ≤ v.needBalloonFlag ∧ v.needBalloonFlag ≤ 19
  down : v.ballooningDown = true →
    0 < v.balloonTarget ∧ lastAccepted sent = some v.balloonTarget.toUInt64

/-- The reclaim counter moves by at most one, and back to one under pressure. -/
theorem countedFlag_bounds {v : VirtualMachineInfo}
    (h : 0 ≤ v.needBalloonFlag ∧ v.needBalloonFlag ≤ 19) :
    0 ≤ countedFlag v ∧ countedFlag v ≤ 20 := by
  unfold countedFlag
  split
  · omega
  · split
    · omega
    · omega

private theorem balloonInv_new {v : VirtualMachineInfo} (h : IsNew v) : BalloonInv v [] := by
  obtain ⟨addr, domid, name, win, r, rfl⟩ := h
  have hone : (0 : Int) ≤ 1 ∧ (1 : Int) ≤ 19 := by decide
  exact ⟨fun _ ↦ ⟨rfl, rfl⟩, fun _ ↦ ⟨rfl, rfl⟩, .inl rfl, hone,
    fun hd ↦ absurd hd Bool.false_ne_true⟩

private theorem balloonInv_report {v : VirtualMachineInfo} {sent : Log} (r : Report)
    (h : BalloonInv v sent) : BalloonInv (v.withReport r) sent :=
  ⟨h.idle, h.samples, h.index, h.flag, h.down⟩

private theorem balloonInv_setRef {v : VirtualMachineInfo} {sent : Log} (n : Int)
    (h : BalloonInv v sent) : BalloonInv { v with refcount := n } sent :=
  ⟨h.idle, h.samples, h.index, h.flag, h.down⟩

private theorem balloonInv_flagIncomplete {v : VirtualMachineInfo} {sent : Log}
    (h : BalloonInv v sent) : BalloonInv (flagIncomplete v) sent := by
  unfold flagIncomplete
  split
  · exact h
  · split
    · exact ⟨fun hb ↦ absurd hb.symm Bool.false_ne_true, h.samples, h.index, h.flag, h.down⟩
    · exact h

private theorem balloonInv_flag {v : VirtualMachineInfo} {sent : Log} {n : Int}
    (h : BalloonInv v sent) (hn : 0 ≤ n ∧ n ≤ 19) :
    BalloonInv { v with needBalloonFlag := n } sent :=
  ⟨h.idle, h.samples, h.index, hn, h.down⟩

private theorem balloonInv_notePressure {v : VirtualMachineInfo} {sent : Log}
    (h : BalloonInv v sent) : BalloonInv (notePressure v) sent := by
  unfold notePressure recordPressure
  split
  · split
    · exact h
    · split
      · split
        · exact balloonInv_flag h (by omega)
        · exact h
      · exact h
  · exact h

/-- The two passes before the main loop keep the invariant. -/
theorem balloonInv_prepared {v : VirtualMachineInfo} {sent : Log} (h : BalloonInv v sent) :
    BalloonInv (prepared v) sent :=
  balloonInv_notePressure (balloonInv_flagIncomplete h)

private theorem balloonInv_recordSample {v : VirtualMachineInfo} {sent : Log}
    (h : BalloonInv v sent) (hd : v.ballooningDown = true) :
    BalloonInv (recordSample v) sent := by
  refine ⟨h.idle, fun hf ↦ ?_, ?_, h.flag, h.down⟩
  · exact absurd (hd.symm.trans hf).symm Bool.false_ne_true
  · rcases h.index with hi | hi
    · exact .inr (by simp [recordSample, hi, indexMask])
    · exact .inl (by simp [recordSample, hi, indexMask])

private theorem balloonInv_stepOne {v : VirtualMachineInfo} {sent : Log} (t : Command)
    (ok : Bool) (h : BalloonInv v sent) (hb : v.ballooning = true) (ht : t.accepted = ok) :
    BalloonInv (stepOneAfter v ok) (t :: sent) := by
  cases ok with
  | true =>
    refine ⟨fun hi ↦ ?_, fun _ ↦ ⟨rfl, rfl⟩, .inl rfl, h.flag,
      fun hd ↦ absurd hd Bool.false_ne_true⟩
    exact absurd (hb.symm.trans hi).symm Bool.false_ne_true
  | false =>
    refine ⟨fun hi ↦ ?_, h.samples, h.index, h.flag, fun hd ↦ ?_⟩
    · exact absurd (hb.symm.trans hi).symm Bool.false_ne_true
    · have hlast : lastAccepted (t :: sent) = lastAccepted sent := by simp [lastAccepted, ht]
      rw [hlast]
      exact h.down hd

private theorem balloonInv_down {cfg : BalloonConfig} {v : VirtualMachineInfo} {sent : Log}
    (ok : Bool) (h : BalloonInv v sent) (hb : v.ballooning = false)
    (ht : 0 < balloonTargetOf cfg v) :
    BalloonInv (downAfter cfg v ok)
      (⟨aimed cfg v, .doBallooning, (balloonTargetOf cfg v).toUInt64, ok⟩ :: sent) := by
  obtain ⟨hd, hi⟩ := h.idle hb
  obtain ⟨hs, hx⟩ := h.samples hd
  have hzero : (0 : Int) ≤ 0 ∧ (0 : Int) ≤ 19 := by decide
  cases ok with
  | true =>
    exact ⟨fun hn ↦ absurd hn.symm Bool.false_ne_true, fun _ ↦ ⟨hs, hx⟩, .inl hx, hzero,
      fun _ ↦ ⟨ht, rfl⟩⟩
  | false =>
    exact ⟨fun _ ↦ ⟨hd, hi⟩, fun _ ↦ ⟨hs, hx⟩, .inl hx, hzero,
      fun hn ↦ absurd (hd.symm.trans hn) Bool.false_ne_true⟩

private theorem balloonInv_outcome {cfg : BalloonConfig} {v v' : VirtualMachineInfo}
    {ok : Bool} {cmds sent : Log} (h : BalloonInv v sent) (ho : Outcome cfg v ok v' cmds) :
    BalloonInv v' (cmds ++ sent) := by
  cases ho with
  | skipped => exact h
  | counted _ hc =>
    have hbounds := countedFlag_bounds h.flag
    exact balloonInv_flag h ⟨hbounds.1, by unfold needBalloonCheckTimes at hc; omega⟩
  | untargeted hev _ _ =>
    obtain ⟨hd, hi⟩ := h.idle hev.2.1
    have hzero : (0 : Int) ≤ 0 ∧ (0 : Int) ≤ 19 := by decide
    exact ⟨fun _ ↦ ⟨hd, hi⟩, h.samples, h.index, hzero,
      fun hn ↦ absurd (hd.symm.trans hn) Bool.false_ne_true⟩
  | down hev _ ht => exact balloonInv_down ok h hev.2.1 ht
  | retried hck _ => exact balloonInv_stepOne _ ok h hck.2.1 rfl
  | reached hck _ _ _ => exact balloonInv_stepOne _ ok h hck.2.1 rfl
  | stopped hck _ hd _ _ =>
    exact balloonInv_stepOne _ ok
      (balloonInv_flag (balloonInv_recordSample h hd) (by omega)) hck.2.1 rfl
  | inflating _ _ hd _ _ => exact balloonInv_recordSample h hd
  | finished _ hi hd _ =>
    exact ⟨fun _ ↦ ⟨hd, hi⟩, h.samples, h.index, h.flag, h.down⟩
  | left _ _ hd _ _ =>
    exact ⟨h.idle, h.samples, h.index, h.flag,
      fun hn ↦ absurd (hd.symm.trans hn) Bool.false_ne_true⟩
  | deflating => exact h

/-- Every act keeps the invariant. -/
theorem balloonInv_step (cfg : BalloonConfig) (t : Tracked) (a : VmAct)
    (h : BalloonInv t.vm t.sent) :
    BalloonInv (t.step cfg a).vm (t.step cfg a).sent := by
  cases a with
  | report r => exact balloonInv_report r h
  | turn ok => exact balloonInv_outcome (balloonInv_prepared h) (turn_outcome cfg t.vm ok)
  | setRef n => exact balloonInv_setRef n h

/-- The invariant holds throughout every life. -/
theorem Life.balloonInv {cfg : BalloonConfig} {P : VirtualMachineInfo → Prop} {t : Tracked}
    (h : Life cfg P t) : BalloonInv t.vm t.sent :=
  h.invariant (fun _ hv _ ↦ balloonInv_new hv) (fun t a _ _ hi ↦ balloonInv_step cfg t a hi)

end Memlink
