import Memlink.Balloon.Cycle
import Memlink.Vm.VmList

/-!
# The life of one record

What the daemon's locked sections do to a single record between its creation and its
release: a report replaces what libvirt reports about the VM, a turn of the balloon cycle
changes the balloon fields and may send a command, and the reference count moves. A
`Tracked` record carries the commands sent for it. `Daemon.State` shows that every listed
record of a run of the daemon has such a life, so a law about lives is a law about runs.
-/

namespace Memlink

/-! ### The balloon fields -/

/-- The fields of a record that the balloon cycle writes. -/
structure Control where
  balloonTarget : Int64
  currentActualBalloon : Int64 × Int64
  ballooning : Bool
  needBalloonFlag : Int
  balloonI : Int
  ballooningDown : Bool
  incompleteBalloon : Bool
  deriving DecidableEq, Repr

/-- The balloon fields of a record. -/
def VirtualMachineInfo.control (v : VirtualMachineInfo) : Control :=
  ⟨v.balloonTarget, v.currentActualBalloon, v.ballooning, v.needBalloonFlag, v.balloonI,
    v.ballooningDown, v.incompleteBalloon⟩

/-- A record with its balloon fields replaced and every other field kept. -/
def VirtualMachineInfo.withControl (v : VirtualMachineInfo) (c : Control) :
    VirtualMachineInfo :=
  { v with
    balloonTarget := c.balloonTarget
    currentActualBalloon := c.currentActualBalloon
    ballooning := c.ballooning
    needBalloonFlag := c.needBalloonFlag
    balloonI := c.balloonI
    ballooningDown := c.ballooningDown
    incompleteBalloon := c.incompleteBalloon }

/-- The first pass writes balloon fields only. -/
theorem flagIncomplete_eq_withControl (v : VirtualMachineInfo) :
    ∃ c, flagIncomplete v = v.withControl c := by
  refine ⟨(flagIncomplete v).control, ?_⟩
  unfold flagIncomplete
  split
  · rfl
  · split
    · rfl
    · rfl

/-- The pressure pass writes balloon fields only. -/
theorem notePressure_eq_withControl (v : VirtualMachineInfo) :
    ∃ c, notePressure v = v.withControl c := by
  refine ⟨(notePressure v).control, ?_⟩
  unfold notePressure recordPressure
  split
  · split
    · rfl
    · split
      · split
        · rfl
        · rfl
      · rfl
  · rfl

/-- The two passes before the main loop write balloon fields only. -/
theorem prepared_eq_withControl (v : VirtualMachineInfo) :
    ∃ c, prepared v = v.withControl c := by
  obtain ⟨c, hc⟩ := flagIncomplete_eq_withControl v
  obtain ⟨d, hd⟩ := notePressure_eq_withControl (flagIncomplete v)
  refine ⟨d, ?_⟩
  unfold prepared
  rw [hd, hc]
  rfl

/-- An outcome writes balloon fields only. -/
theorem Outcome.eq_withControl {cfg : BalloonConfig} {v v' : VirtualMachineInfo} {ok : Bool}
    {cmds : Log} (h : Outcome cfg v ok v' cmds) : ∃ c, v' = v.withControl c := by
  refine ⟨v'.control, ?_⟩
  cases h with
  | down => cases ok <;> rfl
  | retried => cases ok <;> rfl
  | reached => cases ok <;> rfl
  | stopped => cases ok <;> rfl
  | _ => rfl

/-- A turn writes balloon fields only. -/
theorem turn_eq_withControl (cfg : BalloonConfig) (v : VirtualMachineInfo) (ok : Bool) :
    ∃ c, (turn cfg v ok).1 = v.withControl c := by
  obtain ⟨c, hc⟩ := prepared_eq_withControl v
  obtain ⟨d, hd⟩ := (turn_outcome cfg v ok).eq_withControl
  refine ⟨d, ?_⟩
  rw [hd, hc]
  rfl

/-- An outcome sends at most one command; it passes its own record, up to balloon fields,
and logs libvirt's answer. -/
theorem Outcome.commands {cfg : BalloonConfig} {v v' : VirtualMachineInfo} {ok : Bool}
    {cmds : Log} (h : Outcome cfg v ok v' cmds) :
    cmds.length ≤ 1 ∧ ∀ c ∈ cmds, c.vm = v.withControl c.vm.control ∧ c.accepted = ok := by
  have hself : v = v.withControl v.control := rfl
  cases h with
  | down => simp [aimed, VirtualMachineInfo.withControl, VirtualMachineInfo.control]
  | stopped => simp [slowed, recordSample, VirtualMachineInfo.withControl,
      VirtualMachineInfo.control]
  | _ => simp [← hself]

/-- The exit command is no command of the cycle. -/
theorem Outcome.site_ne_exit {cfg : BalloonConfig} {v v' : VirtualMachineInfo} {ok : Bool}
    {cmds : Log} (h : Outcome cfg v ok v' cmds) : ∀ c ∈ cmds, c.site ≠ .exit := by
  cases h with
  | down => simp
  | retried => simp
  | reached => simp
  | stopped => simp
  | left => simp
  | _ => exact List.forall_mem_nil _

/-- A down command is sent by `DoBallooning` at its trigger and no other way. -/
theorem Outcome.reclaims {cfg : BalloonConfig} {v v' : VirtualMachineInfo} {ok : Bool}
    {cmds : Log} (h : Outcome cfg v ok v' cmds) {c : Command} (hc : c ∈ cmds)
    (hsite : c.site = .doBallooning) :
    Evaluated v ∧ needBalloonCheckTimes ≤ countedFlag v ∧ 0 < balloonTargetOf cfg v ∧
      v' = downAfter cfg v ok := by
  cases h with
  | down hev hcount hpos => exact ⟨hev, hcount, hpos, rfl⟩
  | retried => cases List.mem_singleton.mp hc; cases hsite
  | reached => cases List.mem_singleton.mp hc; cases hsite
  | stopped => cases List.mem_singleton.mp hc; cases hsite
  | left => cases List.mem_singleton.mp hc; cases hsite
  | _ => cases hc

/-- A turn passes its own record to libvirt, up to balloon fields. -/
theorem turn_command_vm {cfg : BalloonConfig} {v : VirtualMachineInfo} {ok : Bool} {c : Command}
    (h : c ∈ (turn cfg v ok).2) : ∃ d, c.vm = v.withControl d := by
  obtain ⟨e, he⟩ := prepared_eq_withControl v
  refine ⟨c.vm.control, ?_⟩
  rw [((turn_outcome cfg v ok).commands.2 c h).1, he]
  rfl

/-- The commands of a turn, in terms of the record before the cycle. -/
theorem turn_commands (cfg : BalloonConfig) (v : VirtualMachineInfo) (ok : Bool) :
    (turn cfg v ok).2.length ≤ 1 ∧
      ∀ c ∈ (turn cfg v ok).2, c.vm.addr = v.addr ∧ c.vm.domid = v.domid ∧ c.accepted = ok := by
  obtain ⟨hlen, hown⟩ := (turn_outcome cfg v ok).commands
  refine ⟨hlen, fun c hc ↦ ?_⟩
  obtain ⟨d, hd⟩ := turn_command_vm hc
  rw [hd]
  exact ⟨rfl, rfl, (hown c hc).2⟩

/-! ### Lives -/

/-- What can happen to a listed record in one locked section. -/
inductive VmAct where
  | report (r : Report)
  | turn (ok : Bool)
  | setRef (n : Int)

/-- A record and the commands sent for it, newest first. -/
structure Tracked where
  vm : VirtualMachineInfo
  sent : Log

/-- The effect of one act on a tracked record. -/
def Tracked.step (cfg : BalloonConfig) (t : Tracked) : VmAct → Tracked
  | .report r => ⟨t.vm.withReport r, t.sent⟩
  | .turn ok => ⟨(Memlink.turn cfg t.vm ok).1, (Memlink.turn cfg t.vm ok).2 ++ t.sent⟩
  | .setRef n => ⟨{ t.vm with refcount := n }, t.sent⟩

/-- The tracked records some life reaches, with a property `P` of the record all along. -/
inductive Life (cfg : BalloonConfig) (P : VirtualMachineInfo → Prop) : Tracked → Prop where
  | create (v : VirtualMachineInfo) : IsNew v → P v → Life cfg P ⟨v, []⟩
  | step (t : Tracked) (a : VmAct) :
      Life cfg P t → P (t.step cfg a).vm → Life cfg P (t.step cfg a)

/-- The property of a life holds of its record now. -/
theorem Life.holds {cfg : BalloonConfig} {P : VirtualMachineInfo → Prop} {t : Tracked}
    (h : Life cfg P t) : P t.vm := by
  cases h with
  | create v hv hp => exact hp
  | step t a _ hp => exact hp

/-- Invariant rule for lives: hold for new records and keep by every act. -/
theorem Life.invariant {cfg : BalloonConfig} {P : VirtualMachineInfo → Prop} {t : Tracked}
    {Inv : Tracked → Prop} (h : Life cfg P t)
    (hnew : ∀ v, IsNew v → P v → Inv ⟨v, []⟩)
    (hstep : ∀ t a, P t.vm → P (t.step cfg a).vm → Inv t → Inv (t.step cfg a)) : Inv t := by
  induction h with
  | create v hv hp => exact hnew v hv hp
  | step t a ht hp ih => exact hstep t a ht.holds hp ih

/-- Nothing ever sets `lockall`. -/
theorem Life.lockall {cfg : BalloonConfig} {P : VirtualMachineInfo → Prop} {t : Tracked}
    (h : Life cfg P t) : t.vm.lockall = false := by
  induction h with
  | create v hv =>
    obtain ⟨addr, domid, name, win, r, rfl⟩ := hv
    rfl
  | step t a _ _ ih =>
    cases a with
    | report r => exact ih
    | turn ok =>
      obtain ⟨c, hc⟩ := turn_eq_withControl cfg t.vm ok
      change (turn cfg t.vm ok).1.lockall = false
      rw [hc]
      exact ih
    | setRef n => exact ih

end Memlink
