import Memlink.Balloon.Counter
import Memlink.Daemon.History
import Memlink.Vm.Refresh

/-!
# Decisions and fresh statistics

Whether the cycle section acts on statistics that the last call of `GetAllDomainsStats` did
not store. A failing call clears every record first (`libvirt_helper.c:291`), so the validity
checks stop the cycle; without a connection it returns before that
(`libvirt_helper.c:287–289`), while the event thread still waits for libvirtd and the records
stay listed.
-/

namespace Memlink

open Transition

/-! ### What makes a turn respond -/

/-- The cycle moves the counter of the record: the usage is high and the counter is off, or
`DoBallooning` evaluates it and finds a high usage above one or a low usage above zero. -/
structure CounterDue (v : VirtualMachineInfo) : Prop where
  running : v.state = virDomainRunning
  valid : checkVmMemoryStat v = 0
  idle : v.ballooning = false
  full : v.memory ≤ v.currentMem
  moved : usageClass v = .high ∧ (v.needBalloonFlag = 0 ∨ Eligible v ∧ v.needBalloonFlag ≠ 1) ∨
    usageClass v = .low ∧ Eligible v ∧ v.needBalloonFlag ≠ 0

/-- The step-2 command is sent in this cycle. -/
def StepTwoDue (v : VirtualMachineInfo) : Prop :=
  Eligible v ∧ BackInProgress v ∧ v.memstat.actualBalloon ≠ 0 ∧ ¬ shortage v < lowWaterMark ∧
    shortage v ≤ balloonBackReservedSizeKb

/-- The cycle does something about the record. -/
def Responds (v : VirtualMachineInfo) : Prop := CounterDue v ∨ StepOneDue v ∨ StepTwoDue v

/-- A turn sends the step-2 command exactly when it is due. -/
theorem turn_stepTwo_iff (cfg : BalloonConfig) (v : VirtualMachineInfo) (ok : Bool) :
    (∃ c ∈ (turn cfg v ok).2, c.site = .step2) ↔ StepTwoDue v := by
  constructor
  · rintro ⟨c, hc, hsite⟩
    have ho := turn_outcome cfg v ok
    generalize (turn cfg v ok).1 = v', (turn cfg v ok).2 = cmds at ho hc
    cases ho with
    | left hck hi hd hlow hle =>
      have hb := ballooning_of_checked hck hi
      rw [prepared_eq_self hb] at hck hi hd hlow hle
      exact ⟨hck.1, ⟨hb, hd, hi⟩, hck.2.2, hlow, hle⟩
    | down => cases List.mem_singleton.mp hc; cases hsite
    | retried => cases List.mem_singleton.mp hc; cases hsite
    | reached => cases List.mem_singleton.mp hc; cases hsite
    | stopped => cases List.mem_singleton.mp hc; cases hsite
    | _ => cases hc
  · rintro ⟨he, ⟨hb, hd, hi⟩, ha, hlow, hle⟩
    rw [turn_eq_of_ballooning hb (.left ⟨he, hb, ha⟩ hi hd hlow hle)]
    exact ⟨_, List.mem_singleton_self _, rfl⟩

private theorem usageClass_high_iff (v : VirtualMachineInfo) :
    usageClass v = .high ↔ usageHigh v = true := by
  cases hh : usageHigh v with
  | true => simp [usageClass, hh]
  | false => cases hl : usageLow v <;> simp [usageClass, hh, hl]

private theorem prepared_flag_moves {v : VirtualMachineInfo}
    (hne : (prepared v).needBalloonFlag ≠ v.needBalloonFlag) : CounterDue v := by
  have hp : UnderPressure (flagIncomplete v) := by
    by_cases hp : UnderPressure (flagIncomplete v)
    · exact hp
    · unfold prepared at hne
      rw [notePressure_eq, if_neg hp, (flagIncomplete_kept v).1] at hne
      exact absurd rfl hne
  obtain ⟨hr, hs, ⟨hz, hb⟩, hh⟩ := hp
  rw [(flagIncomplete_kept v).1] at hz
  -- The first pass changes nothing that the other tests read.
  obtain ⟨c, hc⟩ := flagIncomplete_eq_withControl v
  have hs' : checkVmMemoryStat v = 0 := by
    rw [hc] at hs
    exact hs
  obtain ⟨hidle, hfull⟩ := flagIncomplete_idle hs' hb
  rw [flagIncomplete_of_full hfull] at hr hh
  exact ⟨hr, hs', hidle, hfull, .inl ⟨(usageClass_high_iff v).mpr hh, .inl hz⟩⟩

private theorem responds_of_flag {cfg : BalloonConfig} {v : VirtualMachineInfo} {ok : Bool}
    (hf : 0 ≤ v.needBalloonFlag ∧ v.needBalloonFlag ≤ 19)
    (hne : (turn cfg v ok).1.needBalloonFlag ≠ v.needBalloonFlag) : Responds v := by
  rw [turn_needBalloonFlag] at hne
  by_cases hev : Evaluated (prepared v)
  · obtain ⟨he, hrun, hvalid, hidle, hfull⟩ := (evaluated_prepared_iff v).mp hev
    rw [if_pos hev] at hne
    left
    refine ⟨hrun, hvalid, hidle, hfull, ?_⟩
    unfold needBalloonCheckTimes at hne
    rcases countedFlag_prepared_cases v with ⟨hu, hc⟩ | ⟨hu, hc⟩ | ⟨hu, hc⟩
    · refine .inl ⟨hu, .inr ⟨he, fun h1 ↦ hne ?_⟩⟩
      rw [hc, h1]
      rfl
    · refine .inr ⟨hu, he, fun h0 ↦ hne ?_⟩
      rw [hc, h0]
      rfl
    · rw [hc, if_neg (by omega)] at hne
      exact absurd rfl hne
  · rw [if_neg hev] at hne
    by_cases hslow : Sampled (prepared v) ∧ tooSlow (recordSample (prepared v)) = true
    · obtain ⟨⟨hck, hi, hd, _⟩, hslow⟩ := hslow
      have hb := ballooning_of_checked hck hi
      rw [prepared_eq_self hb] at hck hd hslow
      exact .inr (.inl ⟨hck.1, hck.2.2, .inr ⟨hb, hd, .inr hslow⟩⟩)
    · rw [if_neg hslow] at hne
      exact .inl (prepared_flag_moves hne)

private theorem flag_of_counterDue {cfg : BalloonConfig} {v : VirtualMachineInfo} {ok : Bool}
    (hf : 0 ≤ v.needBalloonFlag ∧ v.needBalloonFlag ≤ 19) (h : CounterDue v) :
    (turn cfg v ok).1.needBalloonFlag ≠ v.needBalloonFlag := by
  obtain ⟨hrun, hvalid, hidle, hfull, hmoved⟩ := h
  have hself := flagIncomplete_of_full hfull
  have hcount := countedFlag_prepared_cases v
  rw [turn_needBalloonFlag]
  unfold needBalloonCheckTimes
  rcases hmoved with ⟨hu, hmoved⟩ | ⟨hu, he, hne⟩
  · have hc : countedFlag (prepared v) = 1 := by
      rcases hcount with ⟨_, hc⟩ | ⟨hu', _⟩ | ⟨hu', _⟩
      · exact hc
      · cases hu.symm.trans hu'
      · cases hu.symm.trans hu'
    rw [hc, if_neg (by decide : ¬ (20 : Int) ≤ 1)]
    by_cases hev : Evaluated (prepared v)
    · rw [if_pos hev]
      omega
    · -- Not evaluated, the record is not eligible, and the pressure pass arms it.
      have hz : v.needBalloonFlag = 0 := by
        rcases hmoved with hz | ⟨he, _⟩
        · exact hz
        · exact absurd ((evaluated_prepared_iff v).mpr ⟨he, hrun, hvalid, hidle, hfull⟩) hev
      have hp : UnderPressure (flagIncomplete v) := by
        rw [hself]
        exact ⟨hrun, hvalid, ⟨hz, hidle⟩, (usageClass_high_iff v).mp hu⟩
      have hpre : (prepared v).needBalloonFlag = 1 := by
        unfold prepared
        rw [notePressure_eq, if_pos hp]
      have hns : ¬ Sampled (prepared v) := by
        rintro ⟨hck, hi, _, _⟩
        exact Bool.false_ne_true (hidle.symm.trans (ballooning_of_checked hck hi))
      rw [if_neg hev, if_neg fun hs ↦ hns hs.1, hpre, hz]
      decide
  · have hc : countedFlag (prepared v) = v.needBalloonFlag + 1 := by
      rcases hcount with ⟨hu', _⟩ | ⟨_, hc⟩ | ⟨hu', _⟩
      · cases hu.symm.trans hu'
      · rw [hc, if_pos (by omega)]
      · cases hu.symm.trans hu'
    rw [if_pos ((evaluated_prepared_iff v).mpr ⟨he, hrun, hvalid, hidle, hfull⟩), hc]
    split
    · omega
    · omega

/-- A turn sends a command or moves the counter exactly when the record makes it respond. -/
theorem turn_responds_iff (cfg : BalloonConfig) {v : VirtualMachineInfo}
    (hf : 0 ≤ v.needBalloonFlag ∧ v.needBalloonFlag ≤ 19) (ok : Bool) :
    ((turn cfg v ok).2 ≠ [] ∨ (turn cfg v ok).1.needBalloonFlag ≠ v.needBalloonFlag) ↔
      Responds v := by
  constructor
  · rintro (hsends | hne)
    · obtain ⟨c, hc⟩ := List.exists_mem_of_ne_nil _ hsends
      cases hsite : c.site with
      | doBallooning =>
        have hdue := (turn_reclaims_iff cfg hf.2 ok).mp ⟨c, hc, hsite⟩
        have hu : usageClass v = .low := by simp [usageClass, hdue.low.1, hdue.low.2]
        have hcounted := hdue.counted
        exact .inl ⟨hdue.running, hdue.valid, hdue.idle, hdue.full,
          .inr ⟨hu, hdue.eligible, by omega⟩⟩
      | step1 => exact .inr (.inl ((turn_stepOne_iff cfg v ok).mp ⟨c, hc, hsite⟩))
      | step2 => exact .inr (.inr ((turn_stepTwo_iff cfg v ok).mp ⟨c, hc, hsite⟩))
      | exit => exact absurd hsite ((turn_outcome cfg v ok).site_ne_exit c hc)
    · exact responds_of_flag hf hne
  · rintro (h | h | h)
    · exact .inr (flag_of_counterDue hf h)
    · obtain ⟨c, hc, _⟩ := (turn_stepOne_iff cfg v ok).mpr h
      exact .inl (List.ne_nil_of_mem hc)
    · obtain ⟨c, hc, _⟩ := (turn_stepTwo_iff cfg v ok).mpr h
      exact .inl (List.ne_nil_of_mem hc)

/-! ### Fresh decisions -/

/-- The call stores statistics in the record: the reply holds the balloon size of its domain. -/
def StoresFor (reply : StatsReply) (v : VirtualMachineInfo) : Prop :=
  match reply with
  | .records rs => ∃ p ∈ paramsFor rs v.domid, p.field = .balloonCurrent
  | _ => False

instance : ∀ (reply : StatsReply) (v : VirtualMachineInfo), Decidable (StoresFor reply v)
  | .records rs, v =>
    inferInstanceAs (Decidable (∃ p ∈ paramsFor rs v.domid, p.field = .balloonCurrent))
  | .noConnection, _ => .isFalse id
  | .failed, _ => .isFalse id

/-- The cycle section sends the record a command or moves its counter. -/
def ActsOn (cfg : BalloonConfig) (s : State) (lib : Libvirt) (v : VirtualMachineInfo) : Prop :=
  sentIn cfg v.addr s (.balloonCycle lib) ≠ [] ∨
    ∃ v' ∈ (step cfg s (.balloonCycle lib)).list.vms, v'.addr = v.addr ∧
      v'.needBalloonFlag ≠ v.needBalloonFlag

instance (cfg : BalloonConfig) (s : State) (lib : Libvirt) (v : VirtualMachineInfo) :
    Decidable (ActsOn cfg s lib v) :=
  inferInstanceAs (Decidable (sentIn cfg v.addr s (.balloonCycle lib) ≠ [] ∨
    ∃ v' ∈ (step cfg s (.balloonCycle lib)).list.vms, v'.addr = v.addr ∧
      v'.needBalloonFlag ≠ v.needBalloonFlag))

/-- After the run `acts`, the cycle section of the iteration acts on the records only in which
its statistics section stored statistics. -/
def FreshDecisions (cfg : BalloonConfig) (acts : List Section) (i : Iteration) : Prop :=
  ∀ v ∈ (run (step cfg) State.init (acts ++ i.upToCycle)).list.vms,
    ActsOn cfg (run (step cfg) State.init (acts ++ i.upToCycle)) i.lib v →
      ∃ u ∈ (run (step cfg) State.init (acts ++ i.before)).list.vms,
        u.addr = v.addr ∧ StoresFor i.reply u

instance (cfg : BalloonConfig) (acts : List Section) (i : Iteration) :
    Decidable (FreshDecisions cfg acts i) :=
  inferInstanceAs (Decidable (∀ v ∈ (run (step cfg) State.init (acts ++ i.upToCycle)).list.vms,
    ActsOn cfg (run (step cfg) State.init (acts ++ i.upToCycle)) i.lib v →
      ∃ u ∈ (run (step cfg) State.init (acts ++ i.before)).list.vms,
        u.addr = v.addr ∧ StoresFor i.reply u))

/-- A record that makes the cycle respond has a balloon size. -/
theorem Responds.reported {v : VirtualMachineInfo} (h : Responds v) :
    v.memstat.actualBalloon ≠ 0 := by
  rcases h with h | h | h
  · intro hz
    have hvalid := h.valid
    simp [checkVmMemoryStat, hz] at hvalid
  · exact h.2.1
  · exact h.2.2.1

private theorem actsOn_iff {cfg : BalloonConfig} {s : State}
    (hr : Reachable (step cfg) State.init s) (lib : Libvirt) {v : VirtualMachineInfo}
    (hv : v ∈ s.list.vms) : ActsOn cfg s lib v ↔ Responds v := by
  have hwf := wf_of_reachable hr
  have hflag : 0 ≤ v.needBalloonFlag ∧ v.needBalloonFlag ≤ 19 :=
    (life_of_reachable hr hv).balloonInv.flag
  obtain ⟨n, hmem, hsent⟩ := cycle_turn_sentIn cfg hwf lib hv
  rw [← turn_responds_iff cfg hflag (lib n)]
  unfold ActsOn
  rw [hsent]
  refine or_congr_right ⟨?_, fun hne ↦ ⟨_, hmem, (turn_key cfg v (lib n)).1, hne⟩⟩
  rintro ⟨v', hv', ha, hne⟩
  obtain rfl := eq_of_key_eq (·.addr) (hwf.step cfg _).list.addr_nodup hv' hmem
    (ha.trans (turn_key cfg v (lib n)).1.symm)
  exact hne

private theorem inserted_memstat {cfg : BalloonConfig} {s : State} {v : VirtualMachineInfo}
    {domid : Int} {alloc : Bool} {probe : Option DomainProbe}
    (h : (step cfg s (.findAddVMToList domid alloc probe)).list.vms = v :: s.list.vms) :
    v.memstat = ⟨0, 0, 0, 0, 0⟩ := by
  change (findAddVMToList s.list domid alloc probe).vms = v :: s.list.vms at h
  rcases findAddVMToList_cases s.list domid alloc probe with ⟨n, _, he⟩ | ⟨w, hw, _, he⟩
  · rw [he] at h
    have hlen := congrArg List.length h
    simp at hlen
  · rw [he] at h
    obtain ⟨rfl, _⟩ := List.cons.inj h
    exact initAndCheckVM_memstat hw

private theorem memstat_source {cfg : BalloonConfig} {s : State} (h : s.Wf) {a : Section}
    (ha : a.ofBalloonThread = false) {v : VirtualMachineInfo}
    (hv : v ∈ (step cfg s a).list.vms) (hstat : v.memstat.actualBalloon ≠ 0) :
    ∃ u ∈ s.list.vms, u.addr = v.addr ∧ u.memstat = v.memstat := by
  rcases step_tracked h a hv with ⟨_, _, _, hvms, alloc, probe, rfl⟩ | ⟨u, hu, hua, act, hp, he⟩
  · rw [inserted_memstat hvms] at hstat
    exact absurd rfl hstat
  · have hvm : v = ((s.tracked u).step cfg act).vm := congrArg Tracked.vm he
    refine ⟨u, hu, hua, ?_⟩
    rw [hvm]
    cases hp with
    | stats => cases ha
    | cycle => cases ha
    | info _ r hr => exact hr.symm
    | event => rfl

private theorem storesFor_of_refresh {reply : StatsReply} (hconn : reply ≠ .noConnection)
    {v : VirtualMachineInfo} (h : (refresh reply v).memstat.actualBalloon ≠ 0) :
    StoresFor reply v := by
  cases reply with
  | noConnection => exact absurd rfl hconn
  | failed => exact absurd rfl h
  | records rs =>
    rw [refresh_records] at h
    change lastValue .balloonCurrent (·.value) (paramsFor rs v.domid) 0 ≠ 0 at h
    unfold lastValue at h
    cases hl : ((paramsFor rs v.domid).filter (fun p ↦ p.field = .balloonCurrent)).getLast? with
    | none =>
      rw [hl] at h
      exact absurd rfl h
    | some p =>
      obtain ⟨hp, hf⟩ := List.mem_filter.mp (List.mem_of_getLast? hl)
      exact ⟨p, hp, by simpa using hf⟩

private theorem reported_source {cfg : BalloonConfig} {s : State} (h : s.Wf)
    {reply : StatsReply} (hconn : reply ≠ .noConnection) (between : List Section)
    (hothers : ∀ a ∈ between, a.ofBalloonThread = false) :
    ∀ v ∈ (run (step cfg) s (.updateAllVmInfoAndMemoryStats reply :: between)).list.vms,
      v.memstat.actualBalloon ≠ 0 → ∃ u ∈ s.list.vms, u.addr = v.addr ∧ StoresFor reply u := by
  -- Over the sections in between, from the state that the statistics section leaves.
  have hstats : ∀ v ∈ (step cfg s (.updateAllVmInfoAndMemoryStats reply)).list.vms,
      v.memstat.actualBalloon ≠ 0 → ∃ u ∈ s.list.vms, u.addr = v.addr ∧ StoresFor reply u := by
    intro v hv hstat
    simp only [step, getAllDomainsStats_eq_map reply _ h.list.domid_nodup] at hv
    obtain ⟨u, hu, rfl⟩ := List.mem_map.mp hv
    obtain ⟨r, hr⟩ := refresh_eq_withReport reply u
    refine ⟨u, hu, ?_, storesFor_of_refresh hconn hstat⟩
    rw [hr]
    rfl
  rw [run_cons]
  have hwf := h.step cfg (.updateAllVmInfoAndMemoryStats reply)
  generalize step cfg s (.updateAllVmInfoAndMemoryStats reply) = t at hstats hwf ⊢
  induction between generalizing t with
  | nil => exact hstats
  | cons a between ih =>
    refine ih (fun b hb ↦ hothers b (List.mem_cons_of_mem a hb)) (step cfg t a)
      (fun v hv hstat ↦ ?_) (hwf.step cfg a)
    obtain ⟨w, hw, hwa, hwm⟩ := memstat_source hwf (hothers a List.mem_cons_self) hv hstat
    obtain ⟨u, hu, hua, hst⟩ := hstats w hw (hwm ▸ hstat)
    exact ⟨u, hu, hua.trans hwa, hst⟩

/-- When decisions are fresh. For every run and every iteration after it, with any reply and
any sections of the other threads around it: the cycle section acts only on the records that
the statistics section filled exactly when there was a connection, or no listed record makes
the cycle respond. -/
theorem freshDecisions_iff (cfg : BalloonConfig) (acts : List Section) (i : Iteration) :
    FreshDecisions cfg acts i ↔ i.reply ≠ .noConnection ∨
      ∀ v ∈ (run (step cfg) State.init (acts ++ i.upToCycle)).list.vms, ¬ Responds v := by
  have hr : Reachable (step cfg) State.init (run (step cfg) State.init (acts ++ i.upToCycle)) :=
    ⟨_, rfl⟩
  constructor
  · intro h
    by_cases hconn : i.reply = .noConnection
    · right
      intro v hv hresp
      obtain ⟨u, _, _, hst⟩ := h v hv ((actsOn_iff hr i.lib hv).mpr hresp)
      rw [hconn] at hst
      exact hst
    · exact .inl hconn
  · rintro (hconn | hnone) v hv hacts
    · have hresp := (actsOn_iff hr i.lib hv).mp hacts
      unfold Iteration.upToCycle at hv
      rw [← List.append_assoc, run_append] at hv
      exact reported_source (wf_of_reachable ⟨_, rfl⟩) hconn i.between
        (fun a ha ↦ i.others a (List.mem_append_right _ ha)) v hv hresp.reported
    · exact absurd ((actsOn_iff hr i.lib hv).mp hacts) (hnone v hv)

/-- libvirtd goes away after one idle iteration: the next cycle counts the old statistics. -/
theorem stale_statistics_counted : ¬ ∀ acts i, FreshDecisions .default acts i := by
  intro h
  have hrun := h (.findAddVMToList 1 true (some (fullProbe 0)) :: idleIterations 1)
    ⟨[], .noConnection, [], fun _ ↦ true, by decide⟩
  revert hrun
  decide +kernel

end Memlink
