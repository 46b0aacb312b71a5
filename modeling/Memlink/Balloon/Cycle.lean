import Memlink.Balloon.Target

/-!
# The balloon cycle

`BalloonCheck` (`memlink_core.c:156–194`), `BalloonMainLoop` (`memlink_core.c:196–257`) and
the locked cycle section of `BalloonVmMemThread` (`memlink_core.c:277–310`). The section
makes three passes over the list; a record's fields are only read and written at its own
turn, so the section is one visit of every record (`balloonCycle_eq_mapState`). `Outcome`
lists everything that one visit can do to a record.
-/

namespace Memlink

/-- `LOW_BALLOON_SIZE_KB`. -/
def lowBalloonSizeKb : Int64 := 300 * 1024

/-- `BALLOON_BACK_RESERVED_SIZE_KB`. -/
def balloonBackReservedSizeKb : UInt64 := 2 * 1024

/-- `LOW_WATER_MARK`. -/
def lowWaterMark : UInt64 := 1024

/-- `INDEX_MASK`. -/
def indexMask : Int := 2

/-- `BALLOONBACK_LEFT`. -/
def balloonbackLeft : Int := -2

/-- `currentActualBalloon[balloonI] = actualBalloon` and the alternation of `balloonI`. An
index outside the two slots, which no run produces, writes neither. -/
def recordSample (v : VirtualMachineInfo) : VirtualMachineInfo :=
  let sample := v.memstat.actualBalloon.toInt64
  { v with
    currentActualBalloon :=
      if v.balloonI = 0 then (sample, v.currentActualBalloon.2)
      else if v.balloonI = 1 then (v.currentActualBalloon.1, sample)
      else v.currentActualBalloon
    balloonI := (v.balloonI + 1).tmod indexMask }

/-- `labs(currentActualBalloon[0] - currentActualBalloon[1]) < LOW_BALLOON_SIZE_KB`. -/
def tooSlow (v : VirtualMachineInfo) : Bool :=
  (v.currentActualBalloon.1 - v.currentActualBalloon.2).abs < lowBalloonSizeKb

/-- The down test of `BalloonCheck`: `actualBalloon - balloonTarget < LOW_WATER_MARK`. -/
def atTarget (v : VirtualMachineInfo) : Bool :=
  v.memstat.actualBalloon - v.balloonTarget.toUInt64 < lowWaterMark

/-- `memory - actualBalloon`, in unsigned arithmetic. -/
def shortage (v : VirtualMachineInfo) : UInt64 :=
  v.memory.toUInt64 - v.memstat.actualBalloon

/-- `BalloonCheck`, with its return code. -/
def balloonCheck (v : VirtualMachineInfo) : VirtualMachineInfo × Int :=
  if v.incompleteBalloon then (v, -1)
  else if v.ballooningDown then
    if atTarget v then (v, -1)
    else
      let v := recordSample v
      if tooSlow v then ({ v with needBalloonFlag := 1 }, -1)
      else (v, 0)
  else if shortage v < lowWaterMark then ({ v with ballooning := false }, 0)
  else if shortage v ≤ balloonBackReservedSizeKb then (v, balloonbackLeft)
  else (v, 0)

/-- `(uint64_t)(memory >= 0 ? memory : BALLON_TARGET_RESERVED_KBYTES)`. -/
def fullTarget (v : VirtualMachineInfo) : UInt64 :=
  (if v.memory ≥ 0 then v.memory else ballonTargetReservedKbytes).toUInt64

/-- The step-1 value, 2 MiB below the full target. -/
def stepOneTarget (v : VirtualMachineInfo) : UInt64 := fullTarget v - balloonBackReservedSizeKb

/-- The loop body of `BalloonMainLoop`. -/
def balloonVm (cfg : BalloonConfig) (lib : Libvirt) (v : VirtualMachineInfo) (log : Log) :
    VirtualMachineInfo × Log :=
  if v.lockall ∨ v.enableFpr then (v, log)
  else if v.ballooning = false then
    if v.state = virDomainRunning then doBallooning cfg lib v log else (v, log)
  else if v.memstat.actualBalloon = 0 then (v, log)
  else
    let (v, ret) := balloonCheck v
    if ret = -1 then
      let (setBalloonRet, log) := setVmBalloonTarget lib .step1 v (stepOneTarget v) log
      if setBalloonRet < 0 then ({ v with incompleteBalloon := true }, log)
      else
        ({ v with
            ballooningDown := false
            balloonI := 0
            currentActualBalloon := (0, 0)
            incompleteBalloon := if v.incompleteBalloon then false else v.incompleteBalloon },
          log)
    else if ret = balloonbackLeft then
      let (_, log) := setVmBalloonTarget lib .step2 v (fullTarget v) log
      (v, log)
    else (v, log)

/-- `BalloonMainLoop`. -/
def balloonMainLoop (cfg : BalloonConfig) (lib : Libvirt) :
    List VirtualMachineInfo → Log → List VirtualMachineInfo × Log :=
  mapState (balloonVm cfg lib)

/-- The first pass, `memlink_core.c:280–292`: a VM below its memory that is not ballooning,
as after a snapshot restore, is marked for balloon-back. -/
def flagIncomplete (v : VirtualMachineInfo) : VirtualMachineInfo :=
  if checkVmMemoryStat v < 0 then v
  else if v.ballooning = false ∧ v.memory > v.currentMem then
    { v with ballooning := true, incompleteBalloon := true }
  else v

/-- The pressure pass, `memlink_core.c:302–306`. -/
def notePressure (v : VirtualMachineInfo) : VirtualMachineInfo :=
  if v.state = virDomainRunning then recordPressure v else v

/-- The cycle section of `BalloonVmMemThread`. The pass that looks for a ballooning VM
(`memlink_core.c:295–299`) has no effect. -/
def balloonCycle (cfg : BalloonConfig) (lib : Libvirt) (vms : List VirtualMachineInfo)
    (log : Log) : List VirtualMachineInfo × Log :=
  balloonMainLoop cfg lib ((vms.map flagIncomplete).map notePressure) log

/-! ### One record's turn -/

/-- A record as `BalloonMainLoop` finds it. -/
def prepared (v : VirtualMachineInfo) : VirtualMachineInfo := notePressure (flagIncomplete v)

/-- A record's turn in the cycle when libvirt answers `ok` to its command: the record
afterwards and the commands sent. -/
def turn (cfg : BalloonConfig) (v : VirtualMachineInfo) (ok : Bool) :
    VirtualMachineInfo × Log :=
  balloonVm cfg (fun _ ↦ ok) (prepared v) []

private theorem mapState_map {f : VirtualMachineInfo → Log → VirtualMachineInfo × Log}
    {g : VirtualMachineInfo → VirtualMachineInfo} (vms : List VirtualMachineInfo) (log : Log) :
    mapState f (vms.map g) log = mapState (fun v ↦ f (g v)) vms log := by
  induction vms generalizing log with
  | nil => rfl
  | cons v vms ih => simp only [List.map_cons, mapState, ih]

/-- The three passes are one visit of every record. -/
theorem balloonCycle_eq_mapState (cfg : BalloonConfig) (lib : Libvirt)
    (vms : List VirtualMachineInfo) (log : Log) :
    balloonCycle cfg lib vms log =
      mapState (fun v ↦ balloonVm cfg lib (prepared v)) vms log := by
  unfold balloonCycle balloonMainLoop prepared
  rw [List.map_map, mapState_map]
  rfl

private theorem doBallooning_local (cfg : BalloonConfig) (lib : Libvirt)
    (v : VirtualMachineInfo) (log : Log) :
    doBallooning cfg lib v log =
      ((doBallooning cfg (fun _ ↦ lib log.length) v []).1,
        (doBallooning cfg (fun _ ↦ lib log.length) v []).2 ++ log) := by
  unfold doBallooning setVmBalloonTarget
  dsimp only
  split
  · rfl
  · split
    · split
      · cases lib log.length
        · rfl
        · rfl
      · rfl
    · rfl

/-- The log only grows at its head, and libvirt is asked at the current log length. -/
theorem balloonVm_local (cfg : BalloonConfig) (lib : Libvirt) (v : VirtualMachineInfo)
    (log : Log) :
    balloonVm cfg lib v log =
      ((balloonVm cfg (fun _ ↦ lib log.length) v []).1,
        (balloonVm cfg (fun _ ↦ lib log.length) v []).2 ++ log) := by
  unfold balloonVm
  split
  · rfl
  · split
    · split
      · exact doBallooning_local cfg lib v log
      · rfl
    · split
      · rfl
      · obtain ⟨w, ret⟩ := balloonCheck v
        unfold setVmBalloonTarget
        dsimp only
        split
        · cases lib log.length
          · rfl
          · rfl
        · split
          · rfl
          · rfl

/-! ### Everything a turn can do -/

/-- Not bypassed by `BalloonMainLoop`. -/
def Eligible (v : VirtualMachineInfo) : Prop := v.lockall = false ∧ v.enableFpr = false

/-- `DoBallooning` evaluates the record: it is eligible, running, not ballooning and has
valid statistics. -/
def Evaluated (v : VirtualMachineInfo) : Prop :=
  Eligible v ∧ v.ballooning = false ∧ v.state = virDomainRunning ∧ checkVmMemoryStat v = 0

/-- `BalloonCheck` looks at the record: it is eligible, ballooning and its balloon size is
reported. -/
def Checked (v : VirtualMachineInfo) : Prop :=
  Eligible v ∧ v.ballooning = true ∧ v.memstat.actualBalloon ≠ 0

/-- `BalloonCheck` gets past its done test in the down phase. -/
def Sampled (v : VirtualMachineInfo) : Prop :=
  Checked v ∧ v.incompleteBalloon = false ∧ v.ballooningDown = true ∧ atTarget v = false

instance (v : VirtualMachineInfo) : Decidable (Eligible v) :=
  inferInstanceAs (Decidable (v.lockall = false ∧ v.enableFpr = false))

instance (v : VirtualMachineInfo) : Decidable (Evaluated v) :=
  inferInstanceAs (Decidable (Eligible v ∧ v.ballooning = false ∧
    v.state = virDomainRunning ∧ checkVmMemoryStat v = 0))

instance (v : VirtualMachineInfo) : Decidable (Checked v) :=
  inferInstanceAs (Decidable (Eligible v ∧ v.ballooning = true ∧ v.memstat.actualBalloon ≠ 0))

instance (v : VirtualMachineInfo) : Decidable (Sampled v) :=
  inferInstanceAs (Decidable (Checked v ∧ v.incompleteBalloon = false ∧
    v.ballooningDown = true ∧ atTarget v = false))

/-- A record is either evaluated or checked. -/
theorem Checked.not_evaluated {v : VirtualMachineInfo} (h : Checked v) : ¬ Evaluated v :=
  fun hev ↦ Bool.false_ne_true (hev.2.1.symm.trans h.2.1)

/-- The record that `DoBallooning` passes to libvirt. -/
def aimed (cfg : BalloonConfig) (v : VirtualMachineInfo) : VirtualMachineInfo :=
  { v with needBalloonFlag := 0, balloonTarget := balloonTargetOf cfg v }

/-- The record after its down command. -/
def downAfter (cfg : BalloonConfig) (v : VirtualMachineInfo) (ok : Bool) :
    VirtualMachineInfo :=
  if ok then { aimed cfg v with ballooning := true, ballooningDown := true } else aimed cfg v

/-- The record after its step-1 command. -/
def stepOneAfter (v : VirtualMachineInfo) (ok : Bool) : VirtualMachineInfo :=
  if ok then
    { v with
      ballooningDown := false
      balloonI := 0
      currentActualBalloon := (0, 0)
      incompleteBalloon := false }
  else { v with incompleteBalloon := true }

/-- The record that is re-armed because its balloon is too slow. -/
def slowed (v : VirtualMachineInfo) : VirtualMachineInfo :=
  { recordSample v with needBalloonFlag := 1 }

/-- The possible results of a turn that finds the record `v`, when libvirt answers `ok`. -/
inductive Outcome (cfg : BalloonConfig) (v : VirtualMachineInfo) (ok : Bool) :
    VirtualMachineInfo → Log → Prop where
  | skipped : ¬ Evaluated v → ¬ Checked v → Outcome cfg v ok v []
  | counted : Evaluated v → countedFlag v < needBalloonCheckTimes →
      Outcome cfg v ok { v with needBalloonFlag := countedFlag v } []
  | untargeted : Evaluated v → needBalloonCheckTimes ≤ countedFlag v →
      ¬ 0 < balloonTargetOf cfg v → Outcome cfg v ok (aimed cfg v) []
  | down : Evaluated v → needBalloonCheckTimes ≤ countedFlag v → 0 < balloonTargetOf cfg v →
      Outcome cfg v ok (downAfter cfg v ok)
        [⟨aimed cfg v, .doBallooning, (balloonTargetOf cfg v).toUInt64, ok⟩]
  | retried : Checked v → v.incompleteBalloon = true →
      Outcome cfg v ok (stepOneAfter v ok) [⟨v, .step1, stepOneTarget v, ok⟩]
  | reached : Checked v → v.incompleteBalloon = false → v.ballooningDown = true →
      atTarget v = true → Outcome cfg v ok (stepOneAfter v ok) [⟨v, .step1, stepOneTarget v, ok⟩]
  | stopped : Checked v → v.incompleteBalloon = false → v.ballooningDown = true →
      atTarget v = false → tooSlow (recordSample v) = true →
      Outcome cfg v ok (stepOneAfter (slowed v) ok)
        [⟨slowed v, .step1, stepOneTarget v, ok⟩]
  | inflating : Checked v → v.incompleteBalloon = false → v.ballooningDown = true →
      atTarget v = false → tooSlow (recordSample v) = false →
      Outcome cfg v ok (recordSample v) []
  | finished : Checked v → v.incompleteBalloon = false → v.ballooningDown = false →
      shortage v < lowWaterMark → Outcome cfg v ok { v with ballooning := false } []
  | left : Checked v → v.incompleteBalloon = false → v.ballooningDown = false →
      ¬ shortage v < lowWaterMark → shortage v ≤ balloonBackReservedSizeKb →
      Outcome cfg v ok v [⟨v, .step2, fullTarget v, ok⟩]
  | deflating : Checked v → v.incompleteBalloon = false → v.ballooningDown = false →
      ¬ shortage v < lowWaterMark → ¬ shortage v ≤ balloonBackReservedSizeKb →
      Outcome cfg v ok v []

/-- The validity check has two results. -/
theorem checkVmMemoryStat_cases (v : VirtualMachineInfo) :
    checkVmMemoryStat v = 0 ∨ checkVmMemoryStat v = -1 := by
  unfold checkVmMemoryStat
  split
  · exact .inr rfl
  · split
    · exact .inr rfl
    · exact .inl rfl

private theorem balloonVm_evaluated (cfg : BalloonConfig) {v : VirtualMachineInfo} (ok : Bool)
    (h : Evaluated v) :
    balloonVm cfg (fun _ ↦ ok) v [] = doBallooning cfg (fun _ ↦ ok) v [] := by
  obtain ⟨⟨hl, hf⟩, hb, hr, _⟩ := h
  unfold balloonVm
  simp only [hl, hf, hb, hr, Bool.false_eq_true, or_self, if_false, if_true]

private theorem balloonVm_stepOne (cfg : BalloonConfig) {v w : VirtualMachineInfo} (ok : Bool)
    (h : Checked v) (hw : balloonCheck v = (w, -1)) :
    balloonVm cfg (fun _ ↦ ok) v [] =
      (stepOneAfter w ok, [⟨w, .step1, stepOneTarget w, ok⟩]) := by
  obtain ⟨⟨hl, hf⟩, hb, ha⟩ := h
  unfold balloonVm
  simp only [hl, hf, hb, ha, hw, Bool.false_eq_true, or_self, Bool.true_eq_false, if_false,
    if_true]
  cases ok
  · rfl
  · simp [setVmBalloonTarget, stepOneAfter]

private theorem balloonVm_left (cfg : BalloonConfig) {v w : VirtualMachineInfo} (ok : Bool)
    (h : Checked v) (hw : balloonCheck v = (w, balloonbackLeft)) :
    balloonVm cfg (fun _ ↦ ok) v [] = (w, [⟨w, .step2, fullTarget w, ok⟩]) := by
  obtain ⟨⟨hl, hf⟩, hb, ha⟩ := h
  unfold balloonVm
  simp only [hl, hf, hb, ha, hw, Bool.false_eq_true, or_self, Bool.true_eq_false, if_false,
    if_true, show balloonbackLeft ≠ -1 by decide]
  rfl

private theorem balloonVm_silent (cfg : BalloonConfig) {v w : VirtualMachineInfo} (ok : Bool)
    (h : Checked v) (hw : balloonCheck v = (w, 0)) :
    balloonVm cfg (fun _ ↦ ok) v [] = (w, []) := by
  obtain ⟨⟨hl, hf⟩, hb, ha⟩ := h
  unfold balloonVm
  simp only [hl, hf, hb, ha, hw, Bool.false_eq_true, or_self, Bool.true_eq_false, if_false,
    show (0 : Int) ≠ -1 by decide, show (0 : Int) ≠ balloonbackLeft by decide]

private theorem balloonVm_skipped (cfg : BalloonConfig) {v : VirtualMachineInfo} (ok : Bool)
    (hne : ¬ Evaluated v) (hnc : ¬ Checked v) : balloonVm cfg (fun _ ↦ ok) v [] = (v, []) := by
  unfold balloonVm
  split
  · rfl
  · next hskip =>
    have he : Eligible v := by simpa [Eligible, not_or] using hskip
    split
    · next hb =>
      split
      · next hr =>
        -- The statistics are what the record lacks to be evaluated.
        have hs : checkVmMemoryStat v = -1 :=
          (checkVmMemoryStat_cases v).resolve_left fun hs ↦ hne ⟨he, hb, hr, hs⟩
        simp [doBallooning, hs]
      · rfl
    · next hb =>
      split
      · rfl
      · next ha => exact absurd ⟨he, by simpa using hb, ha⟩ hnc

/-- The outcomes are what the loop body does. -/
theorem Outcome.result {cfg : BalloonConfig} {v v' : VirtualMachineInfo} {ok : Bool}
    {cmds : Log} (h : Outcome cfg v ok v' cmds) :
    balloonVm cfg (fun _ ↦ ok) v [] = (v', cmds) := by
  cases h with
  | skipped hne hnc => exact balloonVm_skipped cfg ok hne hnc
  | counted hev hc =>
    rw [balloonVm_evaluated cfg ok hev, doBallooning]
    simp only [hev.2.2.2, Int.lt_irrefl, if_false, ge_iff_le, Int.not_le.mpr hc]
  | untargeted hev hc ht =>
    rw [balloonVm_evaluated cfg ok hev, doBallooning]
    simp only [hev.2.2.2, Int.lt_irrefl, if_false, ge_iff_le, hc, if_true, gt_iff_lt, ht]
    rfl
  | down hev hc ht =>
    rw [balloonVm_evaluated cfg ok hev, doBallooning]
    simp only [hev.2.2.2, Int.lt_irrefl, if_false, ge_iff_le, hc, if_true, gt_iff_lt, ht]
    cases ok
    · rfl
    · rfl
  | retried hck hi => exact balloonVm_stepOne cfg ok hck (by simp [balloonCheck, hi])
  | reached hck hi hd hat =>
    exact balloonVm_stepOne cfg ok hck (by simp [balloonCheck, hi, hd, hat])
  | stopped hck hi hd hat hslow =>
    exact balloonVm_stepOne cfg ok hck (by simp [balloonCheck, hi, hd, hat, hslow, slowed])
  | inflating hck hi hd hat hslow =>
    exact balloonVm_silent cfg ok hck (by simp [balloonCheck, hi, hd, hat, hslow])
  | finished hck hi hd hs =>
    exact balloonVm_silent cfg ok hck (by simp [balloonCheck, hi, hd, hs])
  | left hck hi hd hs hle =>
    exact balloonVm_left cfg ok hck (by simp [balloonCheck, hi, hd, hs, hle])
  | deflating hck hi hd hs hle =>
    exact balloonVm_silent cfg ok hck (by simp [balloonCheck, hi, hd, hs, hle])

private theorem exists_outcome_of_evaluated (cfg : BalloonConfig) {v : VirtualMachineInfo}
    (ok : Bool) (hev : Evaluated v) : ∃ v' cmds, Outcome cfg v ok v' cmds := by
  by_cases hc : countedFlag v < needBalloonCheckTimes
  · exact ⟨_, _, .counted hev hc⟩
  · by_cases ht : 0 < balloonTargetOf cfg v
    · exact ⟨_, _, .down hev (Int.not_lt.mp hc) ht⟩
    · exact ⟨_, _, .untargeted hev (Int.not_lt.mp hc) ht⟩

-- The cases follow the branches of `BalloonCheck`.
private theorem exists_outcome_of_checked (cfg : BalloonConfig) {v : VirtualMachineInfo}
    (ok : Bool) (hck : Checked v) : ∃ v' cmds, Outcome cfg v ok v' cmds := by
  cases hi : v.incompleteBalloon with
  | true => exact ⟨_, _, .retried hck hi⟩
  | false =>
    cases hd : v.ballooningDown with
    | true =>
      cases hat : atTarget v with
      | true => exact ⟨_, _, .reached hck hi hd hat⟩
      | false =>
        cases hslow : tooSlow (recordSample v) with
        | true => exact ⟨_, _, .stopped hck hi hd hat hslow⟩
        | false => exact ⟨_, _, .inflating hck hi hd hat hslow⟩
    | false =>
      by_cases hs : shortage v < lowWaterMark
      · exact ⟨_, _, .finished hck hi hd hs⟩
      · by_cases hle : shortage v ≤ balloonBackReservedSizeKb
        · exact ⟨_, _, .left hck hi hd hs hle⟩
        · exact ⟨_, _, .deflating hck hi hd hs hle⟩

/-- A checked record that is incomplete, or whose down phase has ended, gets the step-1
command. -/
theorem exists_stepOne_outcome (cfg : BalloonConfig) {v : VirtualMachineInfo} (ok : Bool)
    (hck : Checked v)
    (hdue : v.incompleteBalloon = true ∨
      v.ballooningDown = true ∧ (atTarget v = true ∨ tooSlow (recordSample v) = true)) :
    ∃ w, (w = v ∨ w = slowed v) ∧
      Outcome cfg v ok (stepOneAfter w ok) [⟨w, .step1, stepOneTarget v, ok⟩] := by
  cases hi : v.incompleteBalloon with
  | true => exact ⟨v, .inl rfl, .retried hck hi⟩
  | false =>
    obtain ⟨hd, hend⟩ := hdue.resolve_left (by simp [hi])
    cases hat : atTarget v with
    | true => exact ⟨v, .inl rfl, .reached hck hi hd hat⟩
    | false =>
      have hslow : tooSlow (recordSample v) = true := hend.resolve_left (by simp [hat])
      exact ⟨slowed v, .inr rfl, .stopped hck hi hd hat hslow⟩

/-- Every result of the loop body is one of the listed outcomes. -/
theorem balloonVm_outcome (cfg : BalloonConfig) (v : VirtualMachineInfo) (ok : Bool) :
    Outcome cfg v ok (balloonVm cfg (fun _ ↦ ok) v []).1
      (balloonVm cfg (fun _ ↦ ok) v []).2 := by
  have hex : ∃ v' cmds, Outcome cfg v ok v' cmds := by
    by_cases hev : Evaluated v
    · exact exists_outcome_of_evaluated cfg ok hev
    · by_cases hck : Checked v
      · exact exists_outcome_of_checked cfg ok hck
      · exact ⟨_, _, .skipped hev hck⟩
  obtain ⟨v', cmds, h⟩ := hex
  rw [h.result]
  exact h

/-- Every turn ends in one of the outcomes of the prepared record. -/
theorem turn_outcome (cfg : BalloonConfig) (v : VirtualMachineInfo) (ok : Bool) :
    Outcome cfg (prepared v) ok (turn cfg v ok).1 (turn cfg v ok).2 :=
  balloonVm_outcome cfg (prepared v) ok

/-- An outcome of the prepared record is the turn. -/
theorem turn_eq_of_outcome {cfg : BalloonConfig} {v v' : VirtualMachineInfo} {ok : Bool}
    {cmds : Log} (h : Outcome cfg (prepared v) ok v' cmds) : turn cfg v ok = (v', cmds) :=
  h.result

end Memlink
