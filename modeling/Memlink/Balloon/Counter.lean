import Memlink.Balloon.Commands
import Memlink.Base.ArmedCounter
import Memlink.Base.Transition

/-!
# The reclaim counter

`needBalloonFlag` is written by `NewVM`, `RecordPressure`, `DoBallooning` and the slow-stop
branch of `BalloonCheck`. The events below are what those four do with it in one turn; the
field is the level of an armed counter over them.
-/

namespace Memlink

open Transition

/-- How the usage percentage of a record is classified. -/
inductive Usage where
  | high
  | between
  | low
  deriving DecidableEq, Repr

/-- The usage tests of `DoBallooning`, in their order. -/
def usageClass (v : VirtualMachineInfo) : Usage :=
  if usageHigh v then .high else if usageLow v then .low else .between

/-- What can happen to the reclaim counter of a record. An evaluation by `DoBallooning` has
valid statistics, and `fired` tells whether its trigger fired. -/
inductive CounterEvent where
  | created
  | pressure
  | slowStop
  | evaluated (usage : Usage) (fired : Bool)
  deriving DecidableEq, Repr

/-- `NewVM`, `RecordPressure`, the slow stop and a high evaluation arm the counter; low
evaluations count. -/
def reclaimCounter : ArmedCounter CounterEvent where
  arms
    | .evaluated usage _ => usage = .high
    | _ => true
  counts
    | .evaluated usage _ => usage = .low
    | _ => false
  fires
    | .evaluated _ fired => fired
    | _ => false

/-- `RecordPressure` finds usage above the upper limit, a counter that is off and no ballooning. -/
def UnderPressure (v : VirtualMachineInfo) : Prop :=
  v.state = virDomainRunning ∧ checkVmMemoryStat v = 0 ∧
    (v.needBalloonFlag = 0 ∧ v.ballooning = false) ∧ usageHigh v = true

instance (v : VirtualMachineInfo) : Decidable (UnderPressure v) :=
  inferInstanceAs (Decidable (v.state = virDomainRunning ∧ checkVmMemoryStat v = 0 ∧
    (v.needBalloonFlag = 0 ∧ v.ballooning = false) ∧ usageHigh v = true))

/-- What the pressure pass does to the counter. -/
def pressureEvents (v : VirtualMachineInfo) : List CounterEvent :=
  if UnderPressure v then [.pressure] else []

/-- What the main loop does to the counter. -/
def loopEvents (v : VirtualMachineInfo) : List CounterEvent :=
  if Evaluated v then [.evaluated (usageClass v) (decide (needBalloonCheckTimes ≤ countedFlag v))]
  else if Sampled v ∧ tooSlow (recordSample v) = true then [.slowStop]
  else []

/-- The counter events of a record's turn, newest first. -/
def counterEvents (v : VirtualMachineInfo) : List CounterEvent :=
  loopEvents (prepared v) ++ pressureEvents (flagIncomplete v)

/-- The trigger fires exactly in the evaluation that is the nineteenth low one since the
counter was armed. -/
def FiresExactly (h : List CounterEvent) : Prop :=
  ∀ (newer : List CounterEvent) (usage : Usage) (fired : Bool) (older : List CounterEvent),
    h = newer ++ CounterEvent.evaluated usage fired :: older →
    (fired = true ↔ usage = .low ∧ reclaimCounter.armed older = true ∧
      reclaimCounter.counted older + 1 = 19)

/-- The field and the history agree. -/
structure CounterLaw (v : VirtualMachineInfo) (h : List CounterEvent) : Prop where
  flag : v.needBalloonFlag = reclaimCounter.level h
  fires : FiresExactly h

private theorem firesExactly_cons {e : CounterEvent} {h : List CounterEvent}
    (hh : FiresExactly h)
    (he : ∀ usage fired, e = .evaluated usage fired →
      (fired = true ↔ usage = .low ∧ reclaimCounter.armed h = true ∧
        reclaimCounter.counted h + 1 = 19)) : FiresExactly (e :: h) := by
  intro newer usage fired older hsplit
  refine forall_event_cons (P := fun d older ↦ ∀ usage fired, d = .evaluated usage fired →
    (fired = true ↔ usage = .low ∧ reclaimCounter.armed older = true ∧
      reclaimCounter.counted older + 1 = 19)) ?_ he newer _ older hsplit usage fired rfl
  rintro newer _ older hsplit usage fired rfl
  exact hh newer usage fired older hsplit

/-- The pressure pass arms the counter of a record under pressure and does nothing else. -/
theorem notePressure_eq (v : VirtualMachineInfo) :
    notePressure v = if UnderPressure v then { v with needBalloonFlag := 1 } else v := by
  unfold notePressure recordPressure UnderPressure
  have hvalid : ¬ checkVmMemoryStat v < 0 ↔ checkVmMemoryStat v = 0 := by
    rcases checkVmMemoryStat_cases v with h | h
    · simp [h]
    · simp [h]
  by_cases hr : v.state = virDomainRunning
  · by_cases hs : checkVmMemoryStat v = 0
    · by_cases hz : v.needBalloonFlag = 0 ∧ v.ballooning = false
      · simp only [hr, hs, hz, if_true, Int.lt_irrefl, if_false, and_self, true_and]
      · simp only [hr, hs, hz, if_true, Int.lt_irrefl, if_false, false_and, and_false]
    · simp only [hr, hs, Classical.not_not.mp (mt hvalid.mp hs), if_true, false_and, and_false,
        if_false]
  · simp only [hr, if_false, false_and]

private theorem counterLaw_prepared {v : VirtualMachineInfo} {h : List CounterEvent}
    (hlaw : CounterLaw v h) :
    CounterLaw (prepared v) (pressureEvents (flagIncomplete v) ++ h) := by
  have hflag : (flagIncomplete v).needBalloonFlag = reclaimCounter.level h := by
    rw [(flagIncomplete_kept v).1, hlaw.flag]
  unfold prepared pressureEvents
  rw [notePressure_eq]
  split
  · exact ⟨(congrArg Nat.cast (ArmedCounter.level_arms rfl rfl)).symm,
      firesExactly_cons hlaw.fires (fun _ _ he ↦ by cases he)⟩
  · exact ⟨hflag, hlaw.fires⟩

/-- The counting step of `DoBallooning`, by the class of the usage. -/
theorem countedFlag_cases (v : VirtualMachineInfo) :
    usageClass v = .high ∧ countedFlag v = 1 ∨
      usageClass v = .low ∧ countedFlag v =
        (if v.needBalloonFlag > 0 then v.needBalloonFlag + 1 else v.needBalloonFlag) ∨
      usageClass v = .between ∧ countedFlag v = v.needBalloonFlag := by
  cases hh : usageHigh v with
  | true => exact .inl ⟨by simp [usageClass, hh], by simp [countedFlag, hh]⟩
  | false =>
    cases hl : usageLow v with
    | true => exact .inr (.inl ⟨by simp [usageClass, hh, hl], by simp [countedFlag, hh, hl]⟩)
    | false => exact .inr (.inr ⟨by simp [usageClass, hh, hl], by simp [countedFlag, hh, hl]⟩)

private theorem counterLaw_evaluated {v v' : VirtualMachineInfo} {h : List CounterEvent}
    (hlaw : CounterLaw v h) (hle : v.needBalloonFlag ≤ 19)
    (hflag : v'.needBalloonFlag =
      if needBalloonCheckTimes ≤ countedFlag v then 0 else countedFlag v) :
    CounterLaw v'
      (.evaluated (usageClass v) (decide (needBalloonCheckTimes ≤ countedFlag v)) :: h) := by
  have hlevel := hlaw.flag
  have hcounted := countedFlag_cases v
  unfold needBalloonCheckTimes at hflag ⊢
  generalize usageClass v = usage, countedFlag v = count at hflag hcounted ⊢
  refine ⟨?_, firesExactly_cons hlaw.fires ?_⟩
  · by_cases hfire : 20 ≤ count
    · rw [hflag, if_pos hfire, ArmedCounter.level_fires (decide_eq_true hfire)]
      rfl
    · have hnot : reclaimCounter.fires (.evaluated usage (decide (20 ≤ count))) = false :=
        decide_eq_false hfire
      rw [hflag, if_neg hfire]
      rcases hcounted with ⟨rfl, hc⟩ | ⟨rfl, hc⟩ | ⟨rfl, hc⟩
      · rw [ArmedCounter.level_arms hnot rfl, hc]
        rfl
      · rw [ArmedCounter.level_counts hnot rfl rfl, hc]
        split
        · rw [if_neg (by omega)]
          omega
        · rw [if_pos (by omega)]
          omega
      · rw [ArmedCounter.level_other hnot rfl rfl, hc, hlevel]
  · -- The trigger is reached by a low evaluation of a counter at nineteen.
    rintro _ _ he
    obtain ⟨rfl, rfl⟩ := CounterEvent.evaluated.inj he
    have hlast : reclaimCounter.level h = 19 ↔
        reclaimCounter.armed h = true ∧ reclaimCounter.counted h = 18 :=
      ArmedCounter.level_eq_succ
    have hnext : reclaimCounter.counted h + 1 = 19 ↔ reclaimCounter.counted h = 18 := by omega
    rw [decide_eq_true_iff, hnext, ← hlast]
    rcases hcounted with ⟨rfl, hc⟩ | ⟨rfl, hc⟩ | ⟨rfl, hc⟩
    · simp [hc]
    · simp only [true_and]
      split at hc
      · omega
      · omega
    · simp only [reduceCtorEq, false_and, iff_false]
      omega

/-- What a turn does to the counter: an evaluation counts and takes it off at the trigger, a
slow stop sets it to one, and nothing else writes it after the pressure pass. -/
theorem turn_needBalloonFlag (cfg : BalloonConfig) (v : VirtualMachineInfo) (ok : Bool) :
    (turn cfg v ok).1.needBalloonFlag =
      if Evaluated (prepared v) then
        if needBalloonCheckTimes ≤ countedFlag (prepared v) then 0 else countedFlag (prepared v)
      else if Sampled (prepared v) ∧ tooSlow (recordSample (prepared v)) = true then 1
      else (prepared v).needBalloonFlag := by
  have ho := turn_outcome cfg v ok
  generalize (turn cfg v ok).1 = v', (turn cfg v ok).2 = cmds, prepared v = w at ho ⊢
  have hkeep : v'.needBalloonFlag = w.needBalloonFlag → Checked w →
      ¬ (Sampled w ∧ tooSlow (recordSample w) = true) → v'.needBalloonFlag =
        if Evaluated w then
          if needBalloonCheckTimes ≤ countedFlag w then 0 else countedFlag w
        else if Sampled w ∧ tooSlow (recordSample w) = true then 1 else w.needBalloonFlag := by
    intro hflag hck hns
    rw [if_neg (hck.not_evaluated), if_neg hns, hflag]
  cases ho with
  | skipped hne hnc => rw [if_neg hne, if_neg fun hs ↦ hnc hs.1.1]
  | counted hev hc => rw [if_pos hev, if_neg (Int.not_le.mpr hc)]
  | untargeted hev hc => rw [if_pos hev, if_pos hc]; rfl
  | down hev hc =>
    rw [if_pos hev, if_pos hc]
    cases ok <;> rfl
  | retried hck hi =>
    refine hkeep ?_ hck (fun hs ↦ Bool.false_ne_true (hs.1.2.1.symm.trans hi))
    cases ok <;> rfl
  | reached hck _ _ hat =>
    refine hkeep ?_ hck (fun hs ↦ Bool.false_ne_true (hs.1.2.2.2.symm.trans hat))
    cases ok <;> rfl
  | stopped hck hi hd hat hslow =>
    rw [if_neg hck.not_evaluated, if_pos ⟨⟨hck, hi, hd, hat⟩, hslow⟩]
    cases ok <;> rfl
  | inflating hck _ _ _ hslow =>
    exact hkeep rfl hck (fun hs ↦ Bool.false_ne_true (hslow.symm.trans hs.2))
  | finished hck _ hd =>
    exact hkeep rfl hck (fun hs ↦ Bool.false_ne_true (hd.symm.trans hs.1.2.2.1))
  | left hck _ hd =>
    exact hkeep rfl hck (fun hs ↦ Bool.false_ne_true (hd.symm.trans hs.1.2.2.1))
  | deflating hck _ hd =>
    exact hkeep rfl hck (fun hs ↦ Bool.false_ne_true (hd.symm.trans hs.1.2.2.1))

/-- A turn keeps the law, with the events it adds. -/
theorem counterLaw_turn (cfg : BalloonConfig) {v : VirtualMachineInfo} {h : List CounterEvent}
    (hle : v.needBalloonFlag ≤ 19) (hlaw : CounterLaw v h) (ok : Bool) :
    CounterLaw (turn cfg v ok).1 (counterEvents v ++ h) := by
  have hpre := counterLaw_prepared hlaw
  have hpre19 : (prepared v).needBalloonFlag ≤ 19 := by
    have := prepared_needBalloonFlag v
    omega
  have hflag := turn_needBalloonFlag cfg v ok
  unfold counterEvents loopEvents
  rw [List.append_assoc]
  split at hflag
  · next hev =>
    rw [if_pos hev]
    exact counterLaw_evaluated hpre hpre19 hflag
  · next hev =>
    rw [if_neg hev]
    split at hflag
    · next hslow =>
      rw [if_pos hslow, List.singleton_append]
      refine ⟨?_, firesExactly_cons hpre.fires (fun _ _ he ↦ by cases he)⟩
      rw [hflag, ArmedCounter.level_arms rfl rfl]
      rfl
    · next hslow =>
      rw [if_neg hslow]
      exact ⟨hflag.trans hpre.flag, hpre.fires⟩

/-- A turn that sends a down command is an evaluation in which the trigger fires. -/
theorem counterEvents_of_reclaim {cfg : BalloonConfig} {v : VirtualMachineInfo} {ok : Bool}
    {c : Command} (hc : c ∈ (turn cfg v ok).2) (hsite : c.site = .doBallooning) :
    ∃ usage older, counterEvents v = .evaluated usage true :: older := by
  obtain ⟨hev, hcount, _⟩ := (turn_outcome cfg v ok).reclaims hc hsite
  unfold counterEvents loopEvents
  rw [if_pos hev, decide_eq_true hcount]
  exact ⟨_, _, rfl⟩

/-! ### How a turn moves the counter -/

/-- The passes before the main loop leave the usage as it is. -/
theorem usageClass_prepared (v : VirtualMachineInfo) : usageClass (prepared v) = usageClass v := by
  obtain ⟨hh, hl⟩ := usage_prepared v
  unfold usageClass
  rw [hh, hl]

/-- Below the upper limit the pressure pass does nothing. -/
theorem prepared_flag_of_not_high {v : VirtualMachineInfo} (h : usageClass v ≠ .high) :
    (prepared v).needBalloonFlag = v.needBalloonFlag := by
  have hlow : usageHigh v ≠ true := fun hh ↦ h (by simp [usageClass, hh])
  obtain ⟨c, hc⟩ := flagIncomplete_eq_withControl v
  have hnone : ¬ UnderPressure (flagIncomplete v) := by
    rintro ⟨_, _, _, hh⟩
    rw [hc] at hh
    exact hlow hh
  unfold prepared
  rw [notePressure_eq, if_neg hnone, (flagIncomplete_kept v).1]

/-- The counting step after the passes, in terms of the record before them. -/
theorem countedFlag_prepared_cases (v : VirtualMachineInfo) :
    usageClass v = .high ∧ countedFlag (prepared v) = 1 ∨
      usageClass v = .low ∧ countedFlag (prepared v) =
        (if v.needBalloonFlag > 0 then v.needBalloonFlag + 1 else v.needBalloonFlag) ∨
      usageClass v = .between ∧ countedFlag (prepared v) = v.needBalloonFlag := by
  have hcount := countedFlag_cases (prepared v)
  rw [usageClass_prepared] at hcount
  rcases hcount with hc | ⟨hu, hc⟩ | ⟨hu, hc⟩
  · exact .inl hc
  · rw [prepared_flag_of_not_high (by simp [hu])] at hc
    exact .inr (.inl ⟨hu, hc⟩)
  · rw [prepared_flag_of_not_high (by simp [hu])] at hc
    exact .inr (.inr ⟨hu, hc⟩)

/-- A turn takes the counter down to one or off, leaves it because it does not evaluate the
record or finds the usage in between, or advances it for a low usage. -/
theorem turn_flag_cases (cfg : BalloonConfig) (v : VirtualMachineInfo) (ok : Bool) :
    (turn cfg v ok).1.needBalloonFlag ≤ 1 ∨
      (turn cfg v ok).1.needBalloonFlag = v.needBalloonFlag ∧
        ¬ (Evaluated (prepared v) ∧ usageClass v ≠ .between) ∨
      (turn cfg v ok).1.needBalloonFlag = v.needBalloonFlag + 1 ∧ 0 < v.needBalloonFlag ∧
        Evaluated (prepared v) ∧ usageClass v = .low := by
  have hflag := turn_needBalloonFlag cfg v ok
  have hpre := prepared_needBalloonFlag v
  split at hflag
  · next hev =>
    rcases countedFlag_prepared_cases v with ⟨hu, hc⟩ | ⟨hu, hc⟩ | ⟨hu, hc⟩
    · left
      split at hflag
      · omega
      · omega
    · split at hflag
      · left
        omega
      · split at hc
        · next hpos => exact .inr (.inr ⟨by omega, hpos, hev, hu⟩)
        · left
          omega
    · split at hflag
      · left
        omega
      · exact .inr (.inl ⟨by omega, fun h ↦ h.2 hu⟩)
  · next hev =>
    split at hflag
    · left
      omega
    · rcases hpre with hp | hp
      · exact .inr (.inl ⟨hflag.trans hp, fun h ↦ hev h.1⟩)
      · left
        omega

/-! ### A counter that is off -/

/-- The counter is off and no down phase runs, which a slow stop could end. -/
def Disarmed (v : VirtualMachineInfo) : Prop :=
  v.needBalloonFlag = 0 ∧ v.ballooningDown = false

instance (v : VirtualMachineInfo) : Decidable (Disarmed v) :=
  inferInstanceAs (Decidable (v.needBalloonFlag = 0 ∧ v.ballooningDown = false))

/-- A refused down command leaves the counter off. -/
theorem disarmed_of_refused {cfg : BalloonConfig} {v : VirtualMachineInfo} {sent : Log} {ok : Bool}
    {c : Command} (hinv : BalloonInv v sent) (hc : c ∈ (turn cfg v ok).2)
    (hsite : c.site = .doBallooning) (href : c.accepted = false) :
    Disarmed (turn cfg v ok).1 := by
  obtain rfl : ok = false := ((turn_commands cfg v ok).2 c hc).2.2.symm.trans href
  obtain ⟨hev, _, _, he⟩ := (turn_outcome cfg v false).reclaims hc hsite
  have hdown := ((balloonInv_prepared hinv).idle hev.2.1).1
  rw [he]
  generalize prepared v = w at hdown ⊢
  exact ⟨rfl, hdown⟩

/-- Only a down command starts a down phase. -/
theorem turn_starts_down {cfg : BalloonConfig} {v : VirtualMachineInfo} {ok : Bool}
    (hd : v.ballooningDown = false) (hd' : (turn cfg v ok).1.ballooningDown = true) :
    ∃ c ∈ (turn cfg v ok).2, c.site = .doBallooning := by
  have hpre := (prepared_ballooningDown v).trans hd
  have ho := turn_outcome cfg v ok
  generalize (turn cfg v ok).1 = v', (turn cfg v ok).2 = cmds, prepared v = w at ho hd' hpre ⊢
  have hne : ¬ w.ballooningDown = true := by simp [hpre]
  cases ho with
  | down => exact ⟨_, List.mem_singleton_self _, rfl⟩
  | retried => cases ok <;> first | cases hd' | exact absurd hd' hne
  | reached _ _ hdown => exact absurd hdown hne
  | stopped _ _ hdown => exact absurd hdown hne
  | _ => exact absurd hd' hne

/-- With a low usage a counter that is off stays off, and nothing is reclaimed. -/
theorem disarmed_turn (cfg : BalloonConfig) {v : VirtualMachineInfo} (h : Disarmed v)
    (hu : usageClass v = .low) (ok : Bool) :
    Disarmed (turn cfg v ok).1 ∧ ∀ c ∈ (turn cfg v ok).2, c.site ≠ .doBallooning := by
  obtain ⟨h0, hd⟩ := h
  have hnone : ∀ c ∈ (turn cfg v ok).2, c.site ≠ .doBallooning := by
    intro c hc hsite
    have hdue := (turn_reclaims_iff cfg (by omega) ok).mp ⟨c, hc, hsite⟩
    have := hdue.counted
    omega
  refine ⟨⟨?_, ?_⟩, hnone⟩
  · have hpre : (prepared v).needBalloonFlag = 0 :=
      (prepared_flag_of_not_high (by simp [hu])).trans h0
    have hcount : countedFlag (prepared v) = 0 := by
      rcases countedFlag_prepared_cases v with ⟨hu', _⟩ | ⟨_, hc⟩ | ⟨hu', _⟩
      · cases hu.symm.trans hu'
      · rw [hc, h0]
        rfl
      · cases hu.symm.trans hu'
    have hns : ¬ Sampled (prepared v) := fun hs ↦
      Bool.false_ne_true (((prepared_ballooningDown v).trans hd).symm.trans hs.2.2.1)
    rw [turn_needBalloonFlag, hcount, hpre, if_neg (by decide : ¬ needBalloonCheckTimes ≤ 0)]
    split
    · rfl
    · rw [if_neg fun hs ↦ hns hs.1]
  · cases hd' : (turn cfg v ok).1.ballooningDown with
    | false => rfl
    | true =>
      obtain ⟨c, hc, hsite⟩ := turn_starts_down hd hd'
      exact absurd hsite (hnone c hc)

end Memlink
