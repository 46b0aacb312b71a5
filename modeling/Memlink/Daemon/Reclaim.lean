import Memlink.Balloon.Counter
import Memlink.Balloon.Samples
import Memlink.Daemon.History

/-!
# When memory is reclaimed

What must have happened in a run before `DoBallooning` sends its command: the exact relation
between `needBalloonFlag` and the history of its record, whether the usage was low all the
time, and whether a reclaim that libvirt refuses comes back. A reclaim that libvirt accepts
starts a down phase, whose samples decide when it is stopped.
-/

namespace Memlink

open Transition

/-- The section sends a down command to the record at `addr`. -/
def SendsDown (cfg : BalloonConfig) (addr : Nat) (s : State) (a : Section) : Prop :=
  ∃ c ∈ sentIn cfg addr s a, c.site = .doBallooning

instance (cfg : BalloonConfig) (addr : Nat) (s : State) (a : Section) :
    Decidable (SendsDown cfg addr s a) :=
  inferInstanceAs (Decidable (∃ c ∈ sentIn cfg addr s a, c.site = .doBallooning))

/-- Only listed records are sent commands. -/
theorem listed_of_sentIn {cfg : BalloonConfig} {addr : Nat} {s : State} (h : s.Wf)
    {lib : Libvirt} {c : Command} (hc : c ∈ sentIn cfg addr s (.balloonCycle lib)) :
    ∃ v ∈ s.list.vms, v.addr = addr ∧ ∃ ok, c ∈ (turn cfg v ok).2 := by
  obtain ⟨sent, he, hsends⟩ := cycle_sends h cfg lib
  unfold sentIn at hc
  rw [he, newCommands_append] at hc
  obtain ⟨hc, ha⟩ := List.mem_filter.mp hc
  obtain ⟨v, hv, ok, hcv⟩ := hsends.emitter c hc
  refine ⟨v, hv, ?_, ok, hcv⟩
  rw [← ((turn_commands cfg v ok).2 c hcv).1]
  simpa using ha

/-! ### The exact trigger -/

/-- The counter events of the record at `addr`, newest first. -/
def counterHistory (cfg : BalloonConfig) (addr : Nat) (s : State) (acts : List Section) :
    List CounterEvent :=
  recordHistory cfg [.created] (fun v _ ↦ counterEvents v) addr s acts

private theorem counterLaw (cfg : BalloonConfig) :
    RecordLaw cfg [.created] (fun v _ ↦ counterEvents v) CounterLaw where
  new := by
    rintro v ⟨addr, domid, name, win, r, rfl⟩
    refine ⟨rfl, ?_⟩
    intro newer usage fired older he
    cases newer with
    | nil => cases he
    | cons e newer => cases newer <;> cases he
  report _ _ _ h := ⟨h.flag, h.fires⟩
  setRef _ _ _ h := ⟨h.flag, h.fires⟩
  turn _ _ ok _ hinv h := counterLaw_turn cfg hinv.flag.2 h ok

private theorem counterHistory_down {cfg : BalloonConfig} {addr : Nat} {s : State}
    {acts : List Section} (h : (run (step cfg) s acts).Wf) {lib : Libvirt}
    (hd : SendsDown cfg addr (run (step cfg) s acts) (.balloonCycle lib)) :
    ∃ usage older, counterHistory cfg addr s (acts ++ [Section.balloonCycle lib]) =
      .evaluated usage true :: older := by
  obtain ⟨c, hc, hsite⟩ := hd
  obtain ⟨v, hv, rfl, ok, hcv⟩ := listed_of_sentIn h hc
  obtain ⟨usage, older, he⟩ := counterEvents_of_reclaim hcv hsite
  unfold counterHistory recordHistory
  rw [history_concat, recordEvents_cycle h hv, he]
  exact ⟨usage, _, rfl⟩

/-- The exact reclaim trigger. In every run, and for the record at any address:
`needBalloonFlag` is 0 if nothing armed it since the trigger last fired, and otherwise one
more than the low evaluations since it was last armed; the trigger fires exactly in the
evaluation that makes this number 19; and between two cycles that send it a down command there
is an arming event followed by 19 low evaluations, none of them high. -/
theorem needBalloonFlag_exact (cfg : BalloonConfig) (addr : Nat) :
    (∀ acts, ∀ v ∈ (run (step cfg) State.init acts).list.vms, v.addr = addr →
      v.needBalloonFlag =
        if reclaimCounter.armed (counterHistory cfg addr State.init acts) then
          1 + reclaimCounter.counted (counterHistory cfg addr State.init acts)
        else 0) ∧
    (∀ acts, FiresExactly (counterHistory cfg addr State.init acts)) ∧
    ∀ (acts : List Section) (lib : Libvirt) (mid : List Section) (lib' : Libvirt),
      SendsDown cfg addr (run (step cfg) State.init acts) (.balloonCycle lib) →
      SendsDown cfg addr (run (step cfg) State.init (acts ++ [Section.balloonCycle lib] ++ mid))
        (.balloonCycle lib') →
      ∃ (lows : List CounterEvent) (arming : CounterEvent) (before : List CounterEvent),
        counterHistory cfg addr (run (step cfg) State.init (acts ++ [Section.balloonCycle lib]))
          (mid ++ [Section.balloonCycle lib']) = lows ++ arming :: before ∧
        reclaimCounter.arms arming = true ∧ lows.countP reclaimCounter.counts = 19 ∧
        ∀ fired, CounterEvent.evaluated .high fired ∉ lows := by
  have hlaw : ∀ acts, FiresExactly (counterHistory cfg addr State.init acts) ∧
      ∀ v ∈ (run (step cfg) State.init acts).list.vms, v.addr = addr →
        CounterLaw v (counterHistory cfg addr State.init acts) :=
    (counterLaw cfg).holds (fun newer _ _ _ he ↦ by cases newer <;> cases he)
      (fun _ _ h ↦ h.fires) addr
  refine ⟨fun acts v hv ha ↦ ?_, fun acts ↦ (hlaw acts).1, fun acts lib mid lib' h1 h2 ↦ ?_⟩
  · rw [((hlaw acts).2 v hv ha).flag]
    unfold ArmedCounter.level counterHistory
    split
    · rfl
    · rfl
  · obtain ⟨u1, older1, he1⟩ := counterHistory_down (wf_of_reachable ⟨acts, rfl⟩) h1
    rw [run_append] at h2
    have hwf : (run (step cfg)
        (run (step cfg) State.init (acts ++ [Section.balloonCycle lib])) mid).Wf :=
      wf_of_reachable ⟨_, run_append ..⟩
    obtain ⟨u2, newer, he2⟩ := counterHistory_down hwf h2
    -- The two firing evaluations, in the history of the whole run.
    have hwhole : counterHistory cfg addr State.init
        (acts ++ [Section.balloonCycle lib] ++ (mid ++ [Section.balloonCycle lib'])) =
          .evaluated u2 true :: (newer ++ .evaluated u1 true :: older1) := by
      unfold counterHistory recordHistory at he1 he2 ⊢
      rw [history_append, he1, he2, List.cons_append]
    obtain ⟨hlow, harmed, hcounted⟩ := ((hlaw _).1 [] u2 true _ hwhole).mp rfl
    have hlevel : reclaimCounter.level (newer ++ .evaluated u1 true :: older1) = 18 + 1 :=
      ArmedCounter.level_eq_succ.mpr ⟨harmed, by omega⟩
    obtain ⟨since, a, before, rfl, ha, hcount, hnone⟩ := ArmedCounter.exists_arming rfl hlevel
    refine ⟨.evaluated u2 true :: since, a, before, he2, ha, ?_, fun fired hmem ↦ ?_⟩
    · rw [List.countP_cons, hcount, hlow]
      rfl
    · rcases List.mem_cons.mp hmem with he | hmem
      · rw [hlow] at he
        cases he
      · exact Bool.false_ne_true ((hnone _ hmem).symm.trans rfl)

/-- Statistics of the 8 GiB guest, by the memory it calls usable. -/
def fullStats (usable : UInt64) : StatsReply :=
  .records [⟨1, [⟨.balloonCurrent, 8388608⟩, ⟨.balloonMaximum, 8388608⟩,
    ⟨.balloonAvailable, 8000000⟩, ⟨.balloonUsable, usable⟩]⟩]

/-- The guest is added and idle until memory is due to be reclaimed from it. -/
def dueRun : List Section :=
  Section.findAddVMToList 1 true (some (fullProbe 0)) :: idleIterations 18 ++
    [Section.updateAllVmInfoAndMemoryStats (fullStats 7000000)]

/-- libvirt refuses the reclaim; after an iteration under pressure and 19 idle ones the guest
is sent a second one. -/
theorem needBalloonFlag_exact_twice :
    ∃ (lows : List CounterEvent) (arming : CounterEvent) (before : List CounterEvent),
      counterHistory .default 0 (run (step .default) State.init
          (dueRun ++ [Section.balloonCycle (fun _ ↦ false)]))
        (([Section.updateAllVmInfoAndMemoryStats (fullStats 3000000),
            .balloonCycle (fun _ ↦ true)] ++
          idleIterations 18 ++ [Section.updateAllVmInfoAndMemoryStats (fullStats 7000000)]) ++
          [Section.balloonCycle (fun _ ↦ true)]) = lows ++ arming :: before ∧
      reclaimCounter.arms arming = true ∧ lows.countP reclaimCounter.counts = 19 ∧
      ∀ fired, CounterEvent.evaluated .high fired ∉ lows :=
  (needBalloonFlag_exact .default 0).2.2 dueRun (fun _ ↦ false) _ (fun _ ↦ true)
    (by decide +kernel) (by decide +kernel)

/-! ### Sustained low usage -/

/-- Whether a cycle section finds valid statistics with a low usage for the record at `addr`. -/
def lowUsageIn (addr : Nat) (s : State) : Section → List Bool
  | .balloonCycle _ =>
    [s.list.vms.any fun v ↦ v.addr = addr ∧ checkVmMemoryStat v = 0 ∧ usageClass v = .low]
  | _ => []

/-- Every cycle section that sends the record a down command is the last of 19 successive
cycle sections that find its usage low. -/
def SustainedLow (cfg : BalloonConfig) (addr : Nat) (acts : List Section) : Prop :=
  ∀ (before : List Section) (lib : Libvirt) (after : List Section),
    acts = before ++ Section.balloonCycle lib :: after →
    SendsDown cfg addr (run (step cfg) State.init before) (.balloonCycle lib) →
      (history (lowUsageIn addr) (step cfg) State.init
        (before ++ [Section.balloonCycle lib])).take 19 = List.replicate 19 true

/-- `DoBallooning` counts the record on or starts over: it evaluates it, and the usage is not
in between. -/
structure Decided (v : VirtualMachineInfo) : Prop where
  eligible : Eligible v
  running : v.state = virDomainRunning
  valid : checkVmMemoryStat v = 0
  idle : v.ballooning = false
  full : v.memory ≤ v.currentMem
  outside : usageClass v ≠ .between

instance (v : VirtualMachineInfo) : Decidable (Decided v) :=
  decidable_of_iff
    (Eligible v ∧ v.state = virDomainRunning ∧ checkVmMemoryStat v = 0 ∧ v.ballooning = false ∧
      v.memory ≤ v.currentMem ∧ usageClass v ≠ .between)
    ⟨fun h ↦ ⟨h.1, h.2.1, h.2.2.1, h.2.2.2.1, h.2.2.2.2.1, h.2.2.2.2.2⟩,
      fun h ↦ ⟨h.eligible, h.running, h.valid, h.idle, h.full, h.outside⟩⟩

/-- No cycle section leaves the record at `addr` in the middle of its count. -/
def NotStalled (addr : Nat) (s : State) : Section → Prop
  | .balloonCycle _ => ∀ v ∈ s.list.vms, v.addr = addr → 2 ≤ v.needBalloonFlag → Decided v
  | _ => True

instance (addr : Nat) (s : State) : ∀ a, Decidable (NotStalled addr s a)
  | .balloonCycle _ =>
    inferInstanceAs (Decidable (∀ v ∈ s.list.vms, v.addr = addr → 2 ≤ v.needBalloonFlag →
      Decided v))
  | .updateAllVmInfoAndMemoryStats _ => .isTrue trivial
  | .updateAllVmInfo _ => .isTrue trivial
  | .findAddVMToList _ _ _ => .isTrue trivial
  | .findDeleteVMFromList _ => .isTrue trivial
  | .freeAllVM => .isTrue trivial

/-- As many of the newest cycles as the counter has counted found the usage low. -/
def WindowLow (v : VirtualMachineInfo) (seen : List Bool) : Prop :=
  seen.take (v.needBalloonFlag - 1).toNat = List.replicate (v.needBalloonFlag - 1).toNat true

private theorem windowLow_of_le {v : VirtualMachineInfo} (h : v.needBalloonFlag ≤ 1)
    (seen : List Bool) : WindowLow v seen := by
  unfold WindowLow
  rw [show (v.needBalloonFlag - 1).toNat = 0 by omega]
  rfl

private theorem windowLow_cons {v v' : VirtualMachineInfo} {seen : List Bool}
    (h : WindowLow v seen) (hpos : 0 < v.needBalloonFlag)
    (hnext : v'.needBalloonFlag = v.needBalloonFlag + 1) : WindowLow v' (true :: seen) := by
  unfold WindowLow at *
  rw [show (v'.needBalloonFlag - 1).toNat = (v.needBalloonFlag - 1).toNat + 1 by omega,
    List.take_succ_cons, h, List.replicate_succ]

private theorem lowUsageIn_of_low {addr : Nat} {s : State} {v : VirtualMachineInfo}
    (hv : v ∈ s.list.vms) (ha : v.addr = addr) (hs : checkVmMemoryStat v = 0)
    (hu : usageClass v = .low) (lib : Libvirt) :
    lowUsageIn addr s (.balloonCycle lib) = [true] := by
  unfold lowUsageIn
  rw [List.any_eq_true.mpr ⟨v, hv, decide_eq_true ⟨ha, hs, hu⟩⟩]

private theorem windowLow_step {cfg : BalloonConfig} {addr : Nat} {s : State}
    {seen : List Bool} {a : Section} (hr : Reachable (step cfg) State.init s)
    (hok : NotStalled addr s a) (h : ∀ v ∈ s.list.vms, v.addr = addr → WindowLow v seen) :
    ∀ v ∈ (step cfg s a).list.vms, v.addr = addr → WindowLow v (lowUsageIn addr s a ++ seen) := by
  intro v' hv' ha'
  rcases step_tracked (wf_of_reachable hr) a hv' with ⟨hnew, _⟩ | ⟨v, hv, hva, act, hp, he⟩
  · obtain ⟨_, domid, name, win, r, rfl⟩ := hnew
    exact windowLow_of_le (Int.le_refl 1) _
  · have ha := hva.trans ha'
    have hvm : v' = ((s.tracked v).step cfg act).vm := congrArg Tracked.vm he
    cases hp with
    | stats => exact hvm ▸ h v hv ha
    | info => exact hvm ▸ h v hv ha
    | event _ n hne =>
      have hquiet : lowUsageIn addr s a = [] := by
        cases a with
        | balloonCycle => cases hne
        | _ => rfl
      rw [hquiet]
      exact hvm ▸ h v hv ha
    | cycle lib n =>
      have hflag : v'.needBalloonFlag = (turn cfg v (lib n)).1.needBalloonFlag :=
        congrArg VirtualMachineInfo.needBalloonFlag hvm
      rcases turn_flag_cases cfg v (lib n) with hle | ⟨hsame, hstall⟩ | ⟨hnext, hpos, hev, hu⟩
      · exact windowLow_of_le (by omega) _
      · -- A counter above one is not left alone here.
        by_cases hle : v.needBalloonFlag ≤ 1
        · exact windowLow_of_le (by omega) _
        · have hd := hok v hv ha (by omega)
          exact absurd ⟨(evaluated_prepared_iff v).mpr
            ⟨hd.eligible, hd.running, hd.valid, hd.idle, hd.full⟩, hd.outside⟩ hstall
      · have hs := ((evaluated_prepared_iff v).mp hev).2.2.1
        rw [lowUsageIn_of_low hv ha hs hu, List.singleton_append]
        exact windowLow_cons (h v hv ha) hpos (hflag.trans hnext)

/-- In every run in which no cycle section leaves the record in the middle of its count, each
down command ends 19 successive cycles of low usage. -/
theorem sustainedLow_of_notStalled (cfg : BalloonConfig) (addr : Nat) (acts : List Section)
    (h : StepsMeet (step cfg) (NotStalled addr) State.init acts) :
    SustainedLow cfg addr acts := by
  rintro before lib after rfl ⟨c, hc, hsite⟩
  have hbefore := ((stepsMeet_append _ _ _ _ _).mp h).1
  have hinv := hbefore.history_invariant (lowUsageIn addr)
    (I := fun s seen ↦ Reachable (step cfg) State.init s ∧
      ∀ v ∈ s.list.vms, v.addr = addr → WindowLow v seen)
    ⟨Reachable.init _ _, fun _ hv ↦ absurd hv List.not_mem_nil⟩
    (fun s seen a hok hs ↦ ⟨hs.1.step a, windowLow_step hs.1 hok hs.2⟩)
  obtain ⟨hr, hwindow⟩ := hinv
  obtain ⟨v, hv, ha, ok, hcv⟩ := listed_of_sentIn (wf_of_reachable hr) hc
  have hle := needBalloonFlag_le hr hv
  have hdue := (turn_reclaims_iff cfg hle ok).mp ⟨c, hcv, hsite⟩
  have hu : usageClass v = .low := by simp [usageClass, hdue.low.1, hdue.low.2]
  have hw := hwindow v hv ha
  unfold WindowLow at hw
  have hcounted := hdue.counted
  rw [show (v.needBalloonFlag - 1).toNat = 18 by omega] at hw
  rw [history_concat, lowUsageIn_of_low hv ha hdue.valid hu, List.singleton_append,
    List.take_succ_cons, hw]
  rfl

/-- The idle guest is sent its down command after 19 idle cycles. -/
theorem sustainedLow_idle :
    SendsDown .default 0 (run (step .default) State.init dueRun) (.balloonCycle (fun _ ↦ true)) ∧
      (history (lowUsageIn 0) (step .default) State.init
        (dueRun ++ [Section.balloonCycle (fun _ ↦ true)])).take 19 = List.replicate 19 true := by
  have hdown : SendsDown .default 0 (run (step .default) State.init dueRun)
      (.balloonCycle (fun _ ↦ true)) := by decide +kernel
  refine ⟨hdown, ?_⟩
  exact sustainedLow_of_notStalled .default 0 (dueRun ++ [Section.balloonCycle (fun _ ↦ true)])
    (by decide +kernel) dueRun (fun _ ↦ true) [] rfl hdown

/-- The guest uses 40 percent of its memory in one cycle between 18 idle ones and the next. -/
def interruptedRun : List Section :=
  Section.findAddVMToList 1 true (some (fullProbe 0)) :: idleIterations 18 ++
    [Section.updateAllVmInfoAndMemoryStats (fullStats 4800000), .balloonCycle (fun _ ↦ true),
      .updateAllVmInfoAndMemoryStats (fullStats 7000000)]

/-- The count goes on where it was. -/
theorem interrupted_count_reclaims : ¬ ∀ addr acts, SustainedLow .default addr acts := by
  intro h
  have hrun := h 0 (interruptedRun ++ [Section.balloonCycle (fun _ ↦ true)]) interruptedRun
    (fun _ ↦ true) [] rfl (by decide +kernel)
  revert hrun
  decide +kernel

/-! ### A refused reclaim -/

/-- The record at `addr` stays listed, every cycle section finds it running with valid
statistics and a low usage, and libvirt accepts every command. -/
def StaysReclaimable (cfg : BalloonConfig) (addr : Nat) (s : State) (a : Section) : Prop :=
  addr ∈ (step cfg s a).list.vms.map (·.addr) ∧
  match a with
  | .balloonCycle lib =>
    (∀ n, lib n = true) ∧ ∀ v ∈ s.list.vms, v.addr = addr →
      v.state = virDomainRunning ∧ checkVmMemoryStat v = 0 ∧ usageClass v = .low
  | _ => True

/-- Some continuation in which the record stays reclaimable sends its VM a down command. -/
def ReclaimReturns (cfg : BalloonConfig) (v : VirtualMachineInfo) (s : State) : Prop :=
  ∃ acts, StepsMeet (step cfg) (StaysReclaimable cfg v.addr) s acts ∧
    ∃ c ∈ newCommands s.log (run (step cfg) s acts).log,
      c.site = .doBallooning ∧ c.vm.domid = v.domid

/-- The record at an address is listed for a domain and disarmed. -/
def DisarmedAt (addr : Nat) (domid : Int) (s : State) : Prop :=
  ∃ v ∈ s.list.vms, v.addr = addr ∧ v.domid = domid ∧ Disarmed v

instance (addr : Nat) (domid : Int) (s : State) : Decidable (DisarmedAt addr domid s) :=
  inferInstanceAs (Decidable (∃ v ∈ s.list.vms, v.addr = addr ∧ v.domid = domid ∧ Disarmed v))

private theorem disarmedAt_step {cfg : BalloonConfig} {addr : Nat} {domid : Int} {s : State}
    {a : Section} (hwf : s.Wf) (h : DisarmedAt addr domid s)
    (hok : StaysReclaimable cfg addr s a) :
    DisarmedAt addr domid (step cfg s a) ∧
      ∃ sent, (step cfg s a).log = sent ++ s.log ∧
        ∀ c ∈ sent, ¬ (c.site = .doBallooning ∧ c.vm.domid = domid) := by
  obtain ⟨v, hv, ha, hd, hdis⟩ := h
  obtain ⟨v', hv', ha'⟩ := List.mem_map.mp hok.1
  obtain ⟨act, hp, he⟩ := step_listed hwf hv hv' (ha'.trans ha.symm)
  have hvm : v' = ((s.tracked v).step cfg act).vm := congrArg Tracked.vm he
  cases hp with
  | stats => exact ⟨⟨v', hv', ha', hvm ▸ hd, hvm ▸ hdis⟩, [], rfl, List.forall_mem_nil _⟩
  | info => exact ⟨⟨v', hv', ha', hvm ▸ hd, hvm ▸ hdis⟩, [], rfl, List.forall_mem_nil _⟩
  | event _ _ hne =>
    refine ⟨⟨v', hv', ha', hvm ▸ hd, hvm ▸ hdis⟩, [], ?_, List.forall_mem_nil _⟩
    exact step_log_eq (by rintro lib rfl; cases hne)
  | cycle lib n =>
    obtain ⟨hdis', _⟩ := disarmed_turn cfg hdis (hok.2.2 v hv ha).2.2 (lib n)
    obtain ⟨sent, hlog, hsends⟩ := cycle_sends hwf cfg lib
    have hdomid : v'.domid = v.domid := by
      rw [hvm]
      exact (turn_key cfg v (lib n)).2
    refine ⟨⟨v', hv', ha', hdomid.trans hd, hvm ▸ hdis'⟩, sent, hlog, ?_⟩
    -- A command to this domain is one of the record's own turn.
    rintro c hc ⟨hsite, hcd⟩
    obtain ⟨w, hw, ok, hcw⟩ := hsends.emitter c hc
    obtain rfl := eq_of_key_eq (·.domid) hwf.list.domid_nodup hw hv
      (((turn_commands cfg w ok).2 c hcw).2.1.symm.trans (hcd.trans hd.symm))
    exact (disarmed_turn cfg hdis (hok.2.2 w hw ha).2.2 ok).2 c hcw hsite

/-- A disarmed record is never reclaimed from as long as its usage stays low. -/
theorem not_reclaimReturns {cfg : BalloonConfig} {v : VirtualMachineInfo} {s : State}
    (hwf : s.Wf) (h : DisarmedAt v.addr v.domid s) : ¬ ReclaimReturns cfg v s := by
  rintro ⟨acts, hsteps, c, hc, hown⟩
  have hinv := hsteps.invariant
    (I := fun t ↦ t.Wf ∧ DisarmedAt v.addr v.domid t ∧ ∃ sent, t.log = sent ++ s.log ∧
      ∀ c ∈ sent, ¬ (c.site = .doBallooning ∧ c.vm.domid = v.domid))
    ⟨hwf, h, [], rfl, List.forall_mem_nil _⟩ ?_
  · obtain ⟨_, _, sent, hlog, hnone⟩ := hinv
    rw [hlog, newCommands_append] at hc
    exact hnone c hc hown
  · rintro t a hok ⟨hwft, hdis, sent, hlog, hnone⟩
    obtain ⟨hdis', sent', hlog', hnone'⟩ := disarmedAt_step hwft hdis hok
    refine ⟨hwft.step cfg a, hdis', sent' ++ sent, by rw [hlog', hlog, List.append_assoc], ?_⟩
    exact List.forall_mem_append.mpr ⟨hnone', hnone⟩

/-- A refused reclaim never comes back: in every run, after a cycle section in which libvirt
refuses the down command of a record, no continuation in which it stays listed, running and
low in use, with every command accepted, sends its VM a down command. -/
theorem refused_down_never_returns (cfg : BalloonConfig) (acts : List Section) (lib : Libvirt)
    (v : VirtualMachineInfo) (hv : v ∈ (run (step cfg) State.init acts).list.vms)
    (href : ∃ c ∈ sentIn cfg v.addr (run (step cfg) State.init acts) (.balloonCycle lib),
      c.site = .doBallooning ∧ c.accepted = false) :
    ¬ ReclaimReturns cfg v (run (step cfg) State.init (acts ++ [Section.balloonCycle lib])) := by
  have hr : Reachable (step cfg) State.init (run (step cfg) State.init acts) := ⟨acts, rfl⟩
  have hwf := wf_of_reachable hr
  obtain ⟨c, hc, hsite, hacc⟩ := href
  obtain ⟨n, hmem, hsent⟩ := cycle_turn_sentIn cfg hwf lib hv
  rw [hsent] at hc
  obtain ⟨haddr, hdomid⟩ := turn_key cfg v (lib n)
  rw [run_concat]
  exact not_reclaimReturns (hwf.step cfg _) ⟨_, hmem, haddr, hdomid,
    disarmed_of_refused (life_of_reachable hr hv).balloonInv hc hsite hacc⟩

/-- The idle guest whose down command was refused. -/
theorem refused_down_never_returns_idle :
    ∃ v ∈ (run (step .default) State.init dueRun).list.vms, v.needBalloonFlag = 19 ∧
      ¬ ReclaimReturns .default v
        (run (step .default) State.init (dueRun ++ [Section.balloonCycle (fun _ ↦ false)])) := by
  obtain ⟨v, hv, hflag, href⟩ : ∃ v ∈ (run (step .default) State.init dueRun).list.vms,
      v.needBalloonFlag = 19 ∧
        ∃ c ∈ sentIn .default v.addr (run (step .default) State.init dueRun)
          (.balloonCycle (fun _ ↦ false)), c.site = .doBallooning ∧ c.accepted = false := by
    decide +kernel
  exact ⟨v, hv, hflag, refused_down_never_returns .default dueRun (fun _ ↦ false) v hv href⟩

/-- One refusal of libvirt disables the reclaim. -/
theorem refused_down_lost :
    ¬ ∀ acts lib, ∀ v ∈ (run (step .default) State.init acts).list.vms,
      (∃ c ∈ sentIn .default v.addr (run (step .default) State.init acts) (.balloonCycle lib),
        c.site = .doBallooning ∧ c.accepted = false) →
      ReclaimReturns .default v
        (run (step .default) State.init (acts ++ [Section.balloonCycle lib])) := by
  intro h
  obtain ⟨v, hv, href, hdis⟩ : ∃ v ∈ (run (step .default) State.init dueRun).list.vms,
      (∃ c ∈ sentIn .default v.addr (run (step .default) State.init dueRun)
        (.balloonCycle (fun _ ↦ false)), c.site = .doBallooning ∧ c.accepted = false) ∧
      DisarmedAt v.addr v.domid
        (run (step .default) State.init (dueRun ++ [Section.balloonCycle (fun _ ↦ false)])) := by
    decide +kernel
  exact not_reclaimReturns (wf_of_reachable ⟨_, rfl⟩) hdis (h dueRun (fun _ ↦ false) v hv href)

/-! ### Slow stops -/

end Memlink
