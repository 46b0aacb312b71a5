import Memlink.Balloon.Episode
import Memlink.Daemon.Commands

/-!
# Balloon episodes in a run of the daemon

Convergence of an episode under a cooperating guest, with the other threads' sections
interleaved in any way, and the soundness of declaring a balloon-back done.
-/

namespace Memlink

open Transition

/-! ### Convergence -/

/-- While this section runs, the record at `addr` stays listed with memory `M`, libvirt
accepts every command, and a statistics refresh reports for it the last accepted target. -/
def Cooperates (cfg : BalloonConfig) (addr : Nat) (M : Int64) (s : State) (a : Section) : Prop :=
  addr ∈ (step cfg s a).list.vms.map (·.addr) ∧
  (∀ v ∈ (step cfg s a).list.vms, v.addr = addr → v.memory = M) ∧
  match a with
  | .balloonCycle lib => ∀ n, lib n = true
  | .updateAllVmInfoAndMemoryStats _ =>
    ∀ v ∈ (step cfg s a).list.vms, v.addr = addr → Follows v (sentTo addr s.log)
  | _ => True

/-- The record at `addr` is listed with memory `M` and has `k` turns left. -/
def InStage (addr : Nat) (M : Int64) (k : Nat) (s : State) : Prop :=
  s.Wf ∧ ∃ v ∈ s.list.vms, v.addr = addr ∧ v.memory = M ∧ Stage v (sentTo addr s.log) k

/-- The statistics of the record at `addr` are those of a guest that follows. -/
def Fresh (addr : Nat) (s : State) : Prop :=
  ∀ v ∈ s.list.vms, v.addr = addr → Follows v (sentTo addr s.log)

section Steps

variable {cfg : BalloonConfig} {addr k : Nat} {M : Int64} {s : State} {a : Section}

private theorem step_at (hwf : s.Wf) (hco : Cooperates cfg addr M s a)
    {v : VirtualMachineInfo} (hv : v ∈ s.list.vms) (ha : v.addr = addr) :
    ∃ v' ∈ (step cfg s a).list.vms, v'.addr = addr ∧ v'.memory = M ∧
      ∃ act, Performs v a act ∧ v' = ((s.tracked v).step cfg act).vm ∧
        sentTo addr (step cfg s a).log = ((s.tracked v).step cfg act).sent := by
  obtain ⟨v', hv', ha'⟩ := List.mem_map.mp hco.1
  obtain ⟨act, hp, he⟩ := step_listed hwf hv hv' (ha'.trans ha.symm)
  refine ⟨v', hv', ha', hco.2.1 v' hv' ha', act, hp, congrArg Tracked.vm he, ?_⟩
  rw [← ha']
  exact congrArg Tracked.sent he

private theorem inStage_keep (h : InStage addr M k s) (hco : Cooperates cfg addr M s a)
    (hnc : ∀ lib, a ≠ .balloonCycle lib) : InStage addr M k (step cfg s a) := by
  obtain ⟨hwf, v, hv, ha, hm, hst⟩ := h
  obtain ⟨v', hv', ha', hm', act, hp, hvm, hsent⟩ := step_at hwf hco hv ha
  refine ⟨hwf.step cfg a, v', hv', ha', hm', ?_⟩
  subst ha
  rw [hsent]
  cases hp with
  | cycle lib n => exact absurd rfl (hnc lib)
  | stats => exact hst.congr (by rw [hvm]; rfl) (hm'.trans hm.symm)
  | info => exact hst.congr (by rw [hvm]; rfl) (hm'.trans hm.symm)
  | event => exact hst.congr (by rw [hvm]; rfl) (hm'.trans hm.symm)

private theorem fresh_keep (h : InStage addr M k s) (hf : Fresh addr s)
    (hco : Cooperates cfg addr M s a) (hother : a.ofBalloonThread = false) :
    Fresh addr (step cfg s a) := by
  obtain ⟨hwf, v, hv, ha, _, _⟩ := h
  obtain ⟨v', hv', ha', _, act, hp, hvm, hsent⟩ := step_at hwf hco hv ha
  intro w hw hwa
  obtain rfl := eq_of_key_eq (·.addr) (hwf.step cfg a).list.addr_nodup hw hv'
    (hwa.trans ha'.symm)
  obtain ⟨he, hr, hl⟩ := hf v hv ha
  subst ha
  rw [hsent, hvm]
  cases hp with
  | stats => cases hother
  | cycle => cases hother
  | info _ r hstat hfpr =>
    refine ⟨⟨he.1, ?_⟩, ?_, ?_⟩
    · exact hfpr.trans he.2
    · change r.memstat.actualBalloon ≠ 0
      rwa [hstat]
    · change r.memstat.actualBalloon = Option.getD _ r.memstat.actualBalloon
      rwa [hstat]
  | event => exact ⟨he, hr, hl⟩

private theorem inStage_cycle {lib : Libvirt} (h : InStage addr M (k + 1) s)
    (hf : Fresh addr s) (hco : Cooperates cfg addr M s (.balloonCycle lib)) (hM : 0 ≤ M) :
    InStage addr M k (step cfg s (.balloonCycle lib)) := by
  obtain ⟨hwf, v, hv, ha, hm, hst⟩ := h
  obtain ⟨v', hv', ha', hm', act, hp, hvm, hsent⟩ := step_at hwf hco hv ha
  refine ⟨hwf.step cfg _, v', hv', ha', hm', ?_⟩
  have hfv := hf v hv ha
  subst ha
  rw [hsent, hvm]
  cases hp with
  | cycle _ n =>
    rw [hco.2.2 n]
    exact hst.turn hfv (hm ▸ hM)
  | event _ _ h => cases h

private theorem inStage_others (acts : List Section)
    (hother : ∀ a ∈ acts, a.ofBalloonThread = false) (h : InStage addr M k s)
    (hco : StepsMeet (step cfg) (Cooperates cfg addr M) s acts) :
    InStage addr M k (run (step cfg) s acts) ∧
      (Fresh addr s → Fresh addr (run (step cfg) s acts)) := by
  induction acts generalizing s with
  | nil => exact ⟨h, id⟩
  | cons a acts ih =>
    have ha := hother a List.mem_cons_self
    have hkeep := inStage_keep h hco.1 (by rintro lib rfl; cases ha)
    obtain ⟨hst, hfr⟩ := ih (fun b hb ↦ hother b (List.mem_cons_of_mem a hb)) hkeep hco.2
    exact ⟨hst, fun hf ↦ hfr (fresh_keep h hf hco.1 ha)⟩

/-- One iteration under cooperation takes an episode one stage further. -/
theorem inStage_iteration (hM : 0 ≤ M) (i : Iteration) (h : InStage addr M (k + 1) s)
    (hco : StepsMeet (step cfg) (Cooperates cfg addr M) s i.sections) :
    InStage addr M k (run (step cfg) s i.sections) := by
  unfold Iteration.sections Iteration.upToCycle at *
  rw [stepsMeet_append, stepsMeet_append] at hco
  obtain ⟨⟨hbefore, hstats, hbetween⟩, hcycle, _⟩ := hco
  rw [run_append] at hcycle
  rw [run_append, run_append]
  obtain ⟨h1, _⟩ := inStage_others i.before
    (fun a ha ↦ i.others a (List.mem_append_left _ ha)) h hbefore
  have h2 := inStage_keep h1 hstats (fun _ hne ↦ by cases hne)
  obtain ⟨h3, hfresh⟩ := inStage_others i.between
    (fun a ha ↦ i.others a (List.mem_append_right _ ha)) h2 hbetween
  exact inStage_cycle h3 (hfresh hstats.2.2) hcycle hM

/-- Enough iterations under cooperation bring an episode to its end. -/
theorem inStage_done (hM : 0 ≤ M) (its : List Iteration) (h : InStage addr M k s)
    (hlen : k ≤ its.length)
    (hco : StepsMeet (step cfg) (Cooperates cfg addr M) s (its.flatMap (·.sections))) :
    InStage addr M 0 (run (step cfg) s ((its.take k).flatMap (·.sections))) := by
  induction k generalizing s its with
  | zero => exact h
  | succ k ih =>
    cases its with
    | nil => cases hlen
    | cons i its =>
      rw [List.flatMap_cons, stepsMeet_append] at hco
      rw [List.take_succ_cons, List.flatMap_cons, run_append]
      exact ih its (inStage_iteration hM i h hco.1) (Nat.le_of_succ_le_succ hlen) hco.2

end Steps

private theorem upToCycle_idle {cfg : BalloonConfig} {addr : Nat} {s : State} (hwf : s.Wf)
    (hlt : addr < s.list.nextAddr)
    (hidle : ∀ v ∈ s.list.vms, v.addr = addr → v.ballooning = false) (acts : List Section)
    (hnc : ∀ a ∈ acts, ∀ lib, a ≠ .balloonCycle lib) :
    ∀ u ∈ (run (step cfg) s acts).list.vms, u.addr = addr → u.ballooning = false := by
  induction acts generalizing s with
  | nil => exact hidle
  | cons a acts ih =>
    refine ih (hwf.step cfg a) (Nat.lt_of_lt_of_le hlt (nextAddr_le_step hwf.list cfg a))
      (fun v' hv' ha' ↦ ?_) (fun b hb ↦ hnc b (List.mem_cons_of_mem a hb))
    rcases step_tracked hwf a hv' with ⟨_, hnew, _⟩ | ⟨v, hv, hva, act, hp, he⟩
    · omega
    · have hb := hidle v hv (hva.trans ha')
      have hvm : v' = ((s.tracked v).step cfg act).vm := congrArg Tracked.vm he
      rw [hvm]
      cases hp with
      | cycle lib => exact absurd rfl (hnc _ List.mem_cons_self lib)
      | stats => exact hb
      | info => exact hb
      | event => exact hb

/-- Convergence of a balloon episode. Take any run in which the record at `addr` has had the
memory `M`, more than 2 MiB, all its life and is ballooning now. If from then on libvirt
accepts every command and every refresh reports the last accepted target, then after at most
three iterations the record is not ballooning, the last target accepted for it is `M`, and
the next cycle that finds `M` as its current memory does not flag it again. -/
theorem episode_converges (cfg : BalloonConfig) (addr : Nat) (M : Int64) (hM : 2048 < M.toInt)
    (acts : List Section)
    (hlife : StepsMeet (step cfg) (Keeps cfg addr fun v ↦ v.memory = M) State.init acts)
    (v : VirtualMachineInfo) (hv : v ∈ (run (step cfg) State.init acts).list.vms)
    (ha : v.addr = addr) (hb : v.ballooning = true) (its : List Iteration)
    (hlen : 3 ≤ its.length)
    (hco : StepsMeet (step cfg) (Cooperates cfg addr M) (run (step cfg) State.init acts)
      (its.flatMap (·.sections))) :
    ∃ n ≤ 3, ∃ s, s = run (step cfg) State.init (acts ++ (its.take n).flatMap (·.sections)) ∧
      (∃ w ∈ s.list.vms, w.addr = addr ∧ w.ballooning = false) ∧
      lastAccepted (sentTo addr s.log) = some M.toUInt64 ∧
      ∀ next : Iteration, ∀ u ∈ (run (step cfg) s next.upToCycle).list.vms,
        u.addr = addr → u.memory = M → u.currentMem = M →
          (flagIncomplete u).ballooning = false := by
  have hM0 : 0 ≤ M := Int64.le_iff_toInt_le.mpr (Int.le_trans (by decide) (Int.le_of_lt hM))
  have hlive := life_of_keeps hlife hv ha
  have hmem : v.memory = M := hlive.holds
  have hwf : (run (step cfg) State.init acts).Wf := wf_of_reachable ⟨acts, rfl⟩
  obtain ⟨k, hk, hst⟩ := exists_stage hlive.balloonInv hlive.backInv hb
  have hin : InStage addr M k (run (step cfg) State.init acts) :=
    ⟨hwf, v, hv, ha, hmem, ha ▸ hst⟩
  have hdone := inStage_done hM0 its hin (Nat.le_trans hk hlen) hco
  rw [← run_append] at hdone
  refine ⟨k, hk, _, rfl, ?_⟩
  generalize run (step cfg) State.init (acts ++ (its.take k).flatMap (·.sections)) = s at hdone ⊢
  obtain ⟨hwf', w, hw, hwa, hwm, hstw⟩ := hdone
  cases hstw with
  | done hwb hlast =>
    have hfull : fullTarget w = M.toUInt64 := by
      rw [fullTarget_of_nonneg (hwm ▸ hM0), hwm]
    refine ⟨⟨w, hw, hwa, hwb⟩, hfull ▸ hlast, fun next u hu hua hum huc ↦ ?_⟩
    have hidle : ∀ x ∈ s.list.vms, x.addr = addr → x.ballooning = false := by
      intro x hx hxa
      rw [eq_of_key_eq (·.addr) hwf'.list.addr_nodup hx hw (hxa.trans hwa.symm)]
      exact hwb
    have hcur : u.memory ≤ u.currentMem :=
      Int64.le_iff_toInt_le.mpr (Int.le_of_eq (congrArg Int64.toInt (hum.trans huc.symm)))
    rw [flagIncomplete_of_full hcur]
    exact upToCycle_idle hwf' (hwa ▸ hwf'.list.addr_lt w hw) hidle next.upToCycle
      next.upToCycle_not_cycle u hu hua

/-- An iteration in which the restored guest reports a balloon size. -/
def followingIteration (kib : UInt64) : Iteration :=
  ⟨[], .records [⟨1, [⟨.balloonCurrent, kib⟩, ⟨.balloonMaximum, 8388608⟩,
      ⟨.balloonAvailable, 4000000⟩, ⟨.balloonUnused, 3000000⟩]⟩],
    [.updateAllVmInfo (fun _ ↦ none)], fun _ ↦ true, by decide⟩

/-- After the rejected command the guest follows two commands and is back at 8 GiB. -/
theorem episode_converges_rejected :
    ∃ n ≤ 3, lastAccepted (sentTo 0 (run (step .default) State.init (restoredRun false ++
      ([followingIteration 4194304, followingIteration 8386560,
        followingIteration 8388608].take n).flatMap (·.sections))).log) = some 8388608 := by
  obtain ⟨v, hv, ha, hb⟩ : ∃ v ∈ (run (step .default) State.init (restoredRun false)).list.vms,
      v.addr = 0 ∧ v.ballooning = true := by decide
  obtain ⟨n, hn, s, hs, _, hlast, _⟩ := episode_converges .default 0 8388608 (by decide)
    (restoredRun false) (by decide) v hv ha hb
    [followingIteration 4194304, followingIteration 8386560, followingIteration 8388608]
    (by decide)
    ⟨⟨by decide, by decide, by decide⟩, ⟨by decide, by decide, trivial⟩,
      ⟨by decide, by decide, fun _ ↦ rfl⟩,
      ⟨by decide, by decide, by decide⟩, ⟨by decide, by decide, trivial⟩,
      ⟨by decide, by decide, fun _ ↦ rfl⟩,
      ⟨by decide, by decide, by decide⟩, ⟨by decide, by decide, trivial⟩,
      ⟨by decide, by decide, fun _ ↦ rfl⟩, trivial⟩
  exact ⟨n, hn, hs ▸ hlast⟩

/-! ### Declaring a balloon-back done -/

/-- The record at each address has the memory `M` gives it. -/
def ConstMemory (cfg : BalloonConfig) (M : Nat → Int64) (s : State) (a : Section) : Prop :=
  ∀ v ∈ (step cfg s a).list.vms, v.memory = M v.addr

instance (cfg : BalloonConfig) (M : Nat → Int64) (s : State) (a : Section) :
    Decidable (ConstMemory cfg M s a) :=
  inferInstanceAs (Decidable (∀ v ∈ (step cfg s a).list.vms, v.memory = M v.addr))

/-- If the cycle section takes a record out of ballooning, its full memory is the last target
accepted for it. -/
def DoneAtFullMemory (cfg : BalloonConfig) (s : State) : Section → Prop
  | .balloonCycle lib =>
    ∀ v ∈ s.list.vms, v.ballooning = true →
      ∀ v' ∈ (step cfg s (.balloonCycle lib)).list.vms, v'.addr = v.addr →
        v'.ballooning = false →
          lastAccepted (sentTo v.addr (step cfg s (.balloonCycle lib)).log) =
            some v.memory.toUInt64
  | _ => True

/-- No record reports a balloon size within 1 MiB of its memory, which is not negative, while
step 1 is the last command accepted for it. -/
def NoneAheadOfStepTwo (s : State) : Section → Prop
  | .balloonCycle _ =>
    ∀ v ∈ s.list.vms, Finishing v →
      0 ≤ v.memory ∧ lastAccepted (sentTo v.addr s.log) ≠ some (stepOneTarget v)
  | _ => True

instance (cfg : BalloonConfig) (s : State) : ∀ a, Decidable (DoneAtFullMemory cfg s a)
  | .balloonCycle lib =>
    inferInstanceAs (Decidable (∀ v ∈ s.list.vms, v.ballooning = true →
      ∀ v' ∈ (step cfg s (.balloonCycle lib)).list.vms, v'.addr = v.addr →
        v'.ballooning = false →
          lastAccepted (sentTo v.addr (step cfg s (.balloonCycle lib)).log) =
            some v.memory.toUInt64))
  | .updateAllVmInfoAndMemoryStats _ => .isTrue trivial
  | .updateAllVmInfo _ => .isTrue trivial
  | .findAddVMToList _ _ _ => .isTrue trivial
  | .findDeleteVMFromList _ => .isTrue trivial
  | .freeAllVM => .isTrue trivial

instance (s : State) : ∀ a, Decidable (NoneAheadOfStepTwo s a)
  | .balloonCycle _ =>
    inferInstanceAs (Decidable (∀ v ∈ s.list.vms, Finishing v →
      0 ≤ v.memory ∧ lastAccepted (sentTo v.addr s.log) ≠ some (stepOneTarget v)))
  | .updateAllVmInfoAndMemoryStats _ => .isTrue trivial
  | .updateAllVmInfo _ => .isTrue trivial
  | .findAddVMToList _ _ _ => .isTrue trivial
  | .findDeleteVMFromList _ => .isTrue trivial
  | .freeAllVM => .isTrue trivial

private theorem finishing_last {v : VirtualMachineInfo} {sent : Log} (hback : BackInv v sent)
    (hf : Finishing v) :
    lastAccepted sent = some v.memory.toUInt64 ↔
      0 ≤ v.memory ∧ lastAccepted sent ≠ some (stepOneTarget v) := by
  by_cases hm : 0 ≤ v.memory
  · have hfull := fullTarget_of_nonneg hm
    rcases hback hf.back with hl | hl
    · simp only [hl, Option.some.injEq, ne_eq, not_true_eq_false, and_false, iff_false]
      rw [← hfull]
      exact stepOneTarget_ne v
    · simp only [hl, hfull, hm, Option.some.injEq, ne_eq, true_and, true_iff]
      rw [← hfull]
      exact (stepOneTarget_ne v).symm
  · -- A negative memory is no target: the reserved size stands in for it.
    have hneg : v.memory.toInt < 0 := by
      rw [Int64.le_iff_toInt_le] at hm
      exact Int.not_le.mp hm
    have hbig := MachineInt.le_toNat_toUInt64 hneg
    have hfull : fullTarget v = 1048576 := by
      unfold fullTarget
      rw [if_neg hm]
      rfl
    simp only [hm, false_and, iff_false]
    intro hl
    rcases hback hf.back with hl' | hl'
    · rw [hl', stepOneTarget, hfull] at hl
      rw [← Option.some.inj hl] at hbig
      exact absurd hbig (by decide)
    · rw [hl', hfull] at hl
      rw [← Option.some.inj hl] at hbig
      exact absurd hbig (by decide)

private theorem doneAtFullMemory_step_iff {cfg : BalloonConfig} {s : State} (hwf : s.Wf)
    (hback : ∀ v ∈ s.list.vms, BackInv v (sentTo v.addr s.log)) (a : Section) :
    DoneAtFullMemory cfg s a ↔ NoneAheadOfStepTwo s a := by
  cases a with
  | balloonCycle lib =>
    constructor
    · intro h v hv hf
      obtain ⟨n, hmem, hsent⟩ := cycle_turn hwf lib hv
      have hb := hf.back.1
      rw [turn_finishing cfg hf] at hmem hsent
      have hlast := h v hv hb _ hmem rfl rfl
      rw [hsent] at hlast
      exact (finishing_last (hback v hv) hf).mp hlast
    · intro h v hv hb v' hv' ha' hb'
      obtain ⟨n, rfl, hsent⟩ := cycle_listed hwf hv hv' ha'
      have hf := (turn_finishes_iff cfg hb (lib n)).mp hb'
      rw [hsent, turn_finishing cfg hf]
      exact (finishing_last (hback v hv) hf).mpr (h v hv hf)
  | _ => exact Iff.rfl

/-- In the runs with a constant memory for each record, every balloon-back is declared done
at full memory exactly when no record runs ahead of its step 2. -/
theorem doneAtFullMemory_iff (cfg : BalloonConfig) (M : Nat → Int64) (acts : List Section)
    (hM : StepsMeet (step cfg) (ConstMemory cfg M) State.init acts) :
    StepsMeet (step cfg) (DoneAtFullMemory cfg) State.init acts ↔
      StepsMeet (step cfg) NoneAheadOfStepTwo State.init acts := by
  have hstep : ∀ pre a post, acts = pre ++ a :: post →
      (DoneAtFullMemory cfg (run (step cfg) State.init pre) a ↔
        NoneAheadOfStepTwo (run (step cfg) State.init pre) a) := by
    rintro pre a post rfl
    have hpre := ((stepsMeet_append (step cfg) _ State.init pre _).mp hM).1
    apply doneAtFullMemory_step_iff (wf_of_reachable ⟨pre, rfl⟩)
    intro v hv
    refine (life_of_keeps (P := fun w ↦ w.memory = M v.addr) ?_ hv rfl).backInv
    exact hpre.mono fun s a h w hw hwa ↦ hwa ▸ h w hw
  rw [stepsMeet_iff_split, stepsMeet_iff_split]
  exact forall_congr' fun pre ↦ forall_congr' fun a ↦ forall_congr' fun post ↦
    imp_congr_right fun he ↦ hstep pre a post he

/-- The restored guest of the rejected command is declared done at full memory. -/
theorem doneAtFullMemory_rejected :
    StepsMeet (step .default) (DoneAtFullMemory .default) State.init (restoredRun false ++
      [followingIteration 4194304, followingIteration 8386560,
        followingIteration 8388608].flatMap (·.sections)) :=
  (doneAtFullMemory_iff .default (fun _ ↦ 8388608) _ (by decide +kernel)).mpr
    (by decide +kernel)

/-- A guest that does not react at all: the nineteenth iteration reclaims memory, two samples
later its balloon is found too slow and step 1 is sent, and in the next iteration its
unchanged size ends the balloon-back 2 MiB short. -/
theorem done_before_stepTwo :
    ¬ ∀ M acts, StepsMeet (step .default) (ConstMemory .default M) State.init acts →
      StepsMeet (step .default) (DoneAtFullMemory .default) State.init acts := by
  intro h
  have hrun := h (fun _ ↦ 8388608)
    (.findAddVMToList 1 true (some (fullProbe 0)) :: idleIterations 22) (by decide +kernel)
  revert hrun
  decide +kernel

/-! ### Staying done -/

/-- The next cycle section leaves the record at `addr` idle and sends it no balloon-back
command, whatever libvirt answers. -/
def StaysDone (cfg : BalloonConfig) (s : State) (addr : Nat) : Prop :=
  ∀ lib, ∃ v' ∈ (step cfg s (.balloonCycle lib)).list.vms, v'.addr = addr ∧
    v'.ballooning = false ∧ v'.incompleteBalloon = false ∧
    ∃ sent, sentTo addr (step cfg s (.balloonCycle lib)).log = sent ++ sentTo addr s.log ∧
      ∀ c ∈ sent, c.site ≠ .step1 ∧ c.site ≠ .step2

private theorem staysDone_turn_iff {cfg : BalloonConfig} {s : State} (hwf : s.Wf)
    {v : VirtualMachineInfo} (hv : v ∈ s.list.vms) :
    StaysDone cfg s v.addr ↔ ∀ ok, LeavesIdle cfg v ok := by
  constructor
  · intro h ok
    obtain ⟨v', hv', ha', hb', hi', sent, hsent, hnone⟩ := h (fun _ ↦ ok)
    obtain ⟨n, rfl, hlog⟩ := cycle_listed hwf hv hv' ha'
    rw [hsent] at hlog
    have hown := List.append_cancel_right hlog
    exact ⟨hb', hi', hown ▸ hnone⟩
  · intro h lib
    obtain ⟨n, hmem, hsent⟩ : ∃ n, (turn cfg v (lib n)).1 ∈ _ ∧ _ := cycle_turn hwf lib hv
    obtain ⟨hb', hi', hnone⟩ := h (lib n)
    exact ⟨_, hmem, (turn_key cfg v (lib n)).1, hb', hi', _, hsent, hnone⟩

/-- Take any run, a cycle section that ends the ballooning of a record, and any sections
without a cycle after which the record holds the same report again. The next cycle section
leaves it idle exactly when the first pass does not flag it again and no memory is due to be
reclaimed from it. -/
theorem staysDone_iff (cfg : BalloonConfig) (acts : List Section) (lib : Libvirt)
    (mid : List Section) (hmid : ∀ a ∈ mid, ∀ lib, a ≠ .balloonCycle lib)
    {v v' w : VirtualMachineInfo} (hv : v ∈ (run (step cfg) State.init acts).list.vms)
    (hb : v.ballooning = true)
    (hv' : v' ∈ (run (step cfg) State.init (acts ++ [Section.balloonCycle lib])).list.vms)
    (ha' : v'.addr = v.addr) (hdone : v'.ballooning = false)
    (hw : w ∈ (run (step cfg) State.init (acts ++ [Section.balloonCycle lib] ++ mid)).list.vms)
    (haw : w.addr = v.addr) (hsame : w.report = v.report) :
    StaysDone cfg (run (step cfg) State.init (acts ++ [Section.balloonCycle lib] ++ mid)) v.addr ↔
      ¬ ReflagDue v ∧ ¬ ReclaimDue w := by
  have hlife : Life cfg _ _ := life_of_reachable ⟨_, rfl⟩ hw
  have hwf : (run (step cfg) State.init acts).Wf := wf_of_reachable ⟨acts, rfl⟩
  -- The cycle took its turn with the record, and it was finishing.
  have hfin : Finishing v := by
    rw [run_concat] at hv'
    obtain ⟨n, hturn, _⟩ := cycle_listed hwf hv hv' ha'
    exact (turn_finishes_iff cfg hb (lib n)).mp (hturn ▸ hdone)
  have hidle : w.ballooning = false := by
    have hwf' : (run (step cfg) State.init (acts ++ [Section.balloonCycle lib])).Wf :=
      wf_of_reachable ⟨_, rfl⟩
    rw [run_append] at hw
    refine upToCycle_idle hwf' (haw ▸ ha' ▸ hwf'.list.addr_lt v' hv') (fun u hu hua ↦ ?_) mid hmid
      w hw rfl
    rw [eq_of_key_eq (·.addr) hwf'.list.addr_nodup hu hv' (hua.trans (haw.trans ha'.symm))]
    exact hdone
  have hinv : BalloonInv w _ := hlife.balloonInv
  have hstat : w.memstat = v.memstat := congrArg Report.memstat hsame
  have hmem : w.memory = v.memory := congrArg Report.memory hsame
  have hcur : w.currentMem = v.currentMem := congrArg Report.currentMem hsame
  have hfpr : w.enableFpr = v.enableFpr := congrArg Report.enableFpr hsame
  have hreflag : ReflagDue w ↔ ReflagDue v := by
    unfold ReflagDue checkVmMemoryStat
    rw [hstat, hmem, hcur]
  rw [← haw, staysDone_turn_iff (wf_of_reachable ⟨_, rfl⟩) hw,
    leavesIdle_iff cfg hinv.flag.2 ⟨hlife.lockall, hfpr.trans hfin.eligible.2⟩ hidle
      (hinv.idle hidle).2, hreflag]

/-- The restored guest after step 1 was accepted, with statistics that report a size. -/
def backRun (kib : UInt64) : List Section :=
  restoredRun true ++ [Section.updateAllVmInfoAndMemoryStats (followingIteration kib).reply]

/-- At full memory the guest stays done. -/
theorem staysDone_full :
    StaysDone .default (run (step .default) State.init (backRun 8388608 ++
      [Section.balloonCycle (fun _ ↦ true)] ++
      [Section.updateAllVmInfoAndMemoryStats (followingIteration 8388608).reply])) 0 := by
  obtain ⟨v, hv, v', hv', w, hw, h0, hb, hnr, ha', hdone, haw, hsame, hcount⟩ :
      ∃ v ∈ (run (step .default) State.init (backRun 8388608)).list.vms,
      ∃ v' ∈ (run (step .default) State.init (backRun 8388608 ++
        [Section.balloonCycle (fun _ ↦ true)])).list.vms,
      ∃ w ∈ (run (step .default) State.init (backRun 8388608 ++
        [Section.balloonCycle (fun _ ↦ true)] ++
        [Section.updateAllVmInfoAndMemoryStats (followingIteration 8388608).reply])).list.vms,
        v.addr = 0 ∧ v.ballooning = true ∧ ¬ ReflagDue v ∧ v'.addr = v.addr ∧
          v'.ballooning = false ∧ w.addr = v.addr ∧ w.report = v.report ∧
          ¬ 19 ≤ w.needBalloonFlag := by decide
  have hmid : ∀ a ∈ [Section.updateAllVmInfoAndMemoryStats (followingIteration 8388608).reply],
      ∀ lib, a ≠ .balloonCycle lib := by simp
  rw [← h0]
  exact (staysDone_iff .default _ _ _ hmid hv hb hv' ha' hdone hw haw hsame).mpr
    ⟨hnr, fun hdue ↦ hcount hdue.counted⟩

/-- The guest reports 608 KiB less than its memory: it is declared done, and with the same
statistics the next cycle flags it again. -/
theorem done_flagged_again :
    ¬ ∀ acts lib mid, (∀ a ∈ mid, ∀ lib, a ≠ .balloonCycle lib) →
      ∀ v ∈ (run (step .default) State.init acts).list.vms, v.ballooning = true →
      ∀ v' ∈ (run (step .default) State.init (acts ++ [Section.balloonCycle lib])).list.vms,
        v'.addr = v.addr → v'.ballooning = false →
      ∀ w ∈ (run (step .default) State.init (acts ++ [Section.balloonCycle lib] ++ mid)).list.vms,
        w.addr = v.addr → w.report = v.report →
        StaysDone .default
          (run (step .default) State.init (acts ++ [Section.balloonCycle lib] ++ mid))
          v.addr := by
  intro h
  obtain ⟨v, hv, v', hv', w, hw, h0, hb, ha', hdone, haw, hsame⟩ :
      ∃ v ∈ (run (step .default) State.init (backRun 8388000)).list.vms,
      ∃ v' ∈ (run (step .default) State.init (backRun 8388000 ++
        [Section.balloonCycle (fun _ ↦ true)])).list.vms,
      ∃ w ∈ (run (step .default) State.init (backRun 8388000 ++
        [Section.balloonCycle (fun _ ↦ true)] ++
        [Section.updateAllVmInfoAndMemoryStats (followingIteration 8388000).reply])).list.vms,
        v.addr = 0 ∧ v.ballooning = true ∧ v'.addr = v.addr ∧ v'.ballooning = false ∧
          w.addr = v.addr ∧ w.report = v.report := by decide
  have hmid : ∀ a ∈ [Section.updateAllVmInfoAndMemoryStats (followingIteration 8388000).reply],
      ∀ lib, a ≠ .balloonCycle lib := by simp
  have hstays := h _ _ _ hmid v hv hb v' hv' ha' hdone w hw haw hsame (fun _ ↦ true)
  obtain ⟨u, hu, _, hidle, _⟩ := hstays
  have hflagged : ∀ u ∈ (step .default (run (step .default) State.init (backRun 8388000 ++
      [Section.balloonCycle (fun _ ↦ true)] ++
      [Section.updateAllVmInfoAndMemoryStats (followingIteration 8388000).reply]))
      (.balloonCycle (fun _ ↦ true))).list.vms, u.ballooning = true := by decide
  exact Bool.false_ne_true (hidle.symm.trans (hflagged u hu))

end Memlink
