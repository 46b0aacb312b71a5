import Memlink.Base.Transition
import Memlink.Balloon.Invariant

/-!
# The daemon's locked sections

Every access to the VM list happens under `g_vmlistHead.lock`. A run of the daemon is a
sequence of the sections so protected: the statistics section and the cycle section of the
balloon thread, `UpdateAllVmInfo` of the main thread, and the insertions and deletions of
the event thread. What libvirt answers inside a section is part of the action, so a run of
actions covers every schedule of the threads and every behaviour of libvirt.
-/

namespace Memlink

open Transition

/-- The VM list and the commands sent so far, newest first. -/
structure State where
  list : VmList
  log : Log

/-- The locked sections, each with the answers of libvirt inside it. -/
inductive Section where
  | updateAllVmInfoAndMemoryStats (reply : StatsReply)
  | balloonCycle (lib : Libvirt)
  | updateAllVmInfo (query : VirtualMachineInfo → Option DomainInfo)
  | findAddVMToList (domid : Int) (alloc : Bool) (probe : Option DomainProbe)
  | findDeleteVMFromList (name : String)
  | freeAllVM

/-- The sections of the balloon thread; all others belong to the event and main threads. -/
def Section.ofBalloonThread : Section → Bool
  | .updateAllVmInfoAndMemoryStats _ => true
  | .balloonCycle _ => true
  | _ => false

/-- A daemon with an empty list that has sent nothing. -/
def State.init : State := ⟨VmList.empty, []⟩

/-- One locked section. -/
def step (cfg : BalloonConfig) (s : State) : Section → State
  | .updateAllVmInfoAndMemoryStats reply =>
    { s with list := { s.list with vms := getAllDomainsStats reply s.list.vms } }
  | .balloonCycle lib =>
    let r := balloonCycle cfg lib s.list.vms s.log
    ⟨{ s.list with vms := r.1 }, r.2⟩
  | .updateAllVmInfo query =>
    { s with list := { s.list with vms := updateAllVmInfo query s.list.vms } }
  | .findAddVMToList domid alloc probe =>
    { s with list := findAddVMToList s.list domid alloc probe }
  | .findDeleteVMFromList name => { s with list := findDeleteVMFromList s.list name }
  | .freeAllVM => { s with list := freeAllVM s.list }

/-- A record of a state, with the commands sent for it. -/
def State.tracked (s : State) (v : VirtualMachineInfo) : Tracked := ⟨v, sentTo v.addr s.log⟩

/-! ### The cycle section as a traversal -/

/-- The cycle section visits every record once; each turn sends at most its own command. -/
theorem balloonCycle_traversal (cfg : BalloonConfig) (lib : Libvirt)
    (vms : List VirtualMachineInfo) (log : Log) :
    ∃ vms' sent, balloonCycle cfg lib vms log = (vms', sent ++ log) ∧
      Traversal (fun v n ↦ turn cfg v (lib n)) vms vms' sent := by
  rw [balloonCycle_eq_mapState]
  apply mapState_traversal
  intro v log
  exact ⟨log.length, balloonVm_local cfg lib (prepared v) log⟩

/-- A turn leaves a record its identity. -/
theorem turn_key (cfg : BalloonConfig) (v : VirtualMachineInfo) (ok : Bool) :
    (turn cfg v ok).1.addr = v.addr ∧ (turn cfg v ok).1.domid = v.domid := by
  obtain ⟨c, hc⟩ := turn_eq_withControl cfg v ok
  rw [hc]
  exact ⟨rfl, rfl⟩

/-! ### Well-formed states -/

/-- Identities are never taken back. -/
theorem nextAddr_le_step {s : State} (h : s.list.Wf) (cfg : BalloonConfig) (a : Section) :
    s.list.nextAddr ≤ (step cfg s a).list.nextAddr := by
  cases a with
  | findAddVMToList domid alloc probe =>
    rcases findAddVMToList_cases s.list domid alloc probe with ⟨n, hn, he⟩ | ⟨v, _, _, he⟩
    · simp only [step, he]
      exact hn
    · simp only [step, he]
      exact Nat.le_succ _
  | findDeleteVMFromList name =>
    exact Nat.le_of_eq (findDeleteVMFromList_spec h name).2.nextAddr_eq.symm
  | freeAllVM => exact Nat.le_of_eq (freeAllVM_spec h).2.nextAddr_eq.symm
  | _ => exact Nat.le_refl _

/-- The list is well formed and commands go to records that exist or existed. -/
structure State.Wf (s : State) : Prop where
  list : s.list.Wf
  log_lt : ∀ c ∈ s.log, c.vm.addr < s.list.nextAddr

private theorem wf_cycle {cfg : BalloonConfig} {s : State} (h : s.Wf) (lib : Libvirt) :
    (step cfg s (.balloonCycle lib)).Wf := by
  obtain ⟨vms', sent, he, ht⟩ := balloonCycle_traversal cfg lib s.list.vms s.log
  have haddr := ht.map_eq (fun v n ↦ (turn_key cfg v (lib n)).1)
  have hdomid := ht.map_eq (fun v n ↦ (turn_key cfg v (lib n)).2)
  simp only [step, he]
  refine ⟨⟨?_, ?_, fun v hv ↦ ?_, ?_⟩, fun c hc ↦ ?_⟩
  · change (vms'.map _).Nodup
    rw [haddr]
    exact h.list.addr_nodup
  · change (vms'.map _).Nodup
    rw [hdomid]
    exact h.list.domid_nodup
  · obtain ⟨w, hw, n, rfl⟩ := ht.exists_source hv
    rw [(turn_key cfg w (lib n)).1]
    exact h.list.addr_lt w hw
  · have hlen := congrArg List.length haddr
    simp only [List.length_map] at hlen
    rw [hlen]
    exact h.list.count_eq
  · rcases List.mem_append.mp hc with hc | hc
    · obtain ⟨w, hw, n, hcw⟩ := ht.exists_emitter hc
      rw [((turn_commands cfg w (lib n)).2 c hcw).1]
      exact h.list.addr_lt w hw
    · exact h.log_lt c hc

private theorem refresh_key (reply : StatsReply) (v : VirtualMachineInfo) :
    (refresh reply v).addr = v.addr ∧ (refresh reply v).domid = v.domid := by
  obtain ⟨r, hr⟩ := refresh_eq_withReport reply v
  rw [hr]
  exact ⟨rfl, rfl⟩

private theorem update_key (query : VirtualMachineInfo → Option DomainInfo)
    (v : VirtualMachineInfo) :
    ((getVmInfo (query v) v).getD v).addr = v.addr ∧
      ((getVmInfo (query v) v).getD v).domid = v.domid := by
  obtain ⟨r, _, _, hr⟩ := getVmInfo_getD_eq_withReport (query v) v
  rw [hr]
  exact ⟨rfl, rfl⟩

/-- Every section keeps a state well formed. -/
theorem State.Wf.step {s : State} (h : s.Wf) (cfg : BalloonConfig) (a : Section) :
    (step cfg s a).Wf := by
  have hnext := nextAddr_le_step h.list cfg a
  cases a with
  | updateAllVmInfoAndMemoryStats reply =>
    refine ⟨?_, h.log_lt⟩
    simp only [Memlink.step, getAllDomainsStats_eq_map reply _ h.list.domid_nodup]
    exact h.list.map (fun v ↦ (refresh_key reply v).1) (fun v ↦ (refresh_key reply v).2)
  | balloonCycle lib => exact wf_cycle h lib
  | updateAllVmInfo query =>
    exact ⟨h.list.map (fun v ↦ (update_key query v).1) (fun v ↦ (update_key query v).2),
      h.log_lt⟩
  | findAddVMToList domid alloc probe =>
    exact ⟨h.list.findAdd domid alloc probe, fun c hc ↦ Nat.lt_of_lt_of_le (h.log_lt c hc) hnext⟩
  | findDeleteVMFromList name =>
    exact ⟨(findDeleteVMFromList_spec h.list name).1,
      fun c hc ↦ Nat.lt_of_lt_of_le (h.log_lt c hc) hnext⟩
  | freeAllVM =>
    exact ⟨(freeAllVM_spec h.list).1, fun c hc ↦ Nat.lt_of_lt_of_le (h.log_lt c hc) hnext⟩

/-- The initial state is well formed. -/
theorem State.wf_init : State.init.Wf :=
  ⟨VmList.wf_empty, fun _ h ↦ absurd h List.not_mem_nil⟩

/-- Every reachable state is well formed. -/
theorem wf_of_reachable {cfg : BalloonConfig} {s : State}
    (h : Reachable (step cfg) State.init s) : s.Wf :=
  h.invariant State.wf_init (fun _ a hs ↦ hs.step cfg a)

/-! ### Every listed record lives a record's life -/

/-- The acts a section can perform on a record `v`. The sections of the other threads leave
the statistics alone. -/
inductive Performs (v : VirtualMachineInfo) : Section → VmAct → Prop where
  | stats (reply : StatsReply) (r : Report) :
      Performs v (.updateAllVmInfoAndMemoryStats reply) (.report r)
  | cycle (lib : Libvirt) (n : Nat) : Performs v (.balloonCycle lib) (.turn (lib n))
  | info (query : VirtualMachineInfo → Option DomainInfo) (r : Report) :
      r.memstat = v.memstat → r.enableFpr = v.enableFpr →
      Performs v (.updateAllVmInfo query) (.report r)
  | event (a : Section) (n : Int) : a.ofBalloonThread = false → Performs v a (.setRef n)

/-- In the cycle section every listed record takes its turn, and what is sent to its address
is the command of that turn. -/
theorem cycle_turn {cfg : BalloonConfig} {s : State} (h : s.Wf) (lib : Libvirt)
    {v : VirtualMachineInfo} (hv : v ∈ s.list.vms) :
    ∃ n, (turn cfg v (lib n)).1 ∈ (step cfg s (.balloonCycle lib)).list.vms ∧
      sentTo v.addr (step cfg s (.balloonCycle lib)).log =
        (turn cfg v (lib n)).2 ++ sentTo v.addr s.log := by
  obtain ⟨vms', sent, he, ht⟩ := balloonCycle_traversal cfg lib s.list.vms s.log
  obtain ⟨n, hmem, hsent⟩ := ht.project
    (fun w k c hc ↦ ((turn_commands cfg w (lib k)).2 c hc).1) h.list.addr_nodup hv
  simp only [step, he, sentTo_append]
  exact ⟨n, hmem, congrArg (· ++ sentTo v.addr s.log) hsent⟩

/-- How a section treats the records: each one listed afterwards is new, with nothing sent
to its address, or one act further than a record listed before. -/
theorem step_tracked {cfg : BalloonConfig} {s : State} (h : s.Wf) (a : Section)
    {v' : VirtualMachineInfo} (hv' : v' ∈ (step cfg s a).list.vms) :
    (IsNew v' ∧ v'.addr = s.list.nextAddr ∧ (step cfg s a).tracked v' = ⟨v', []⟩ ∧
      (step cfg s a).list.vms = v' :: s.list.vms ∧
      ∃ alloc probe, a = .findAddVMToList v'.domid alloc probe) ∨
      ∃ v ∈ s.list.vms, v.addr = v'.addr ∧
        ∃ act, Performs v a act ∧ (step cfg s a).tracked v' = (s.tracked v).step cfg act := by
  cases a with
  | updateAllVmInfoAndMemoryStats reply =>
    simp only [step, getAllDomainsStats_eq_map reply _ h.list.domid_nodup] at hv'
    obtain ⟨v, hv, rfl⟩ := List.mem_map.mp hv'
    obtain ⟨r, hr⟩ := refresh_eq_withReport reply v
    refine .inr ⟨v, hv, (refresh_key reply v).1.symm, .report r, .stats reply r, ?_⟩
    rw [hr]
    rfl
  | balloonCycle lib =>
    obtain ⟨vms', sent, he, ht⟩ := balloonCycle_traversal cfg lib s.list.vms s.log
    have hvms : (step cfg s (.balloonCycle lib)).list.vms = vms' := by simp only [step, he]
    obtain ⟨v, hv, m, hm⟩ := ht.exists_source (hvms ▸ hv')
    have hkey := (turn_key cfg v (lib m)).1
    rw [← hm] at hkey
    -- Addresses are distinct, so the visit made exactly one choice for this record.
    obtain ⟨n, hmem, hsent⟩ := cycle_turn h lib hv
    obtain rfl := eq_of_key_eq (·.addr) (h.step cfg (.balloonCycle lib)).list.addr_nodup hv' hmem
      (hkey.trans (turn_key cfg v (lib n)).1.symm)
    refine .inr ⟨v, hv, (turn_key cfg v (lib n)).1.symm, .turn (lib n), .cycle lib n, ?_⟩
    simp only [State.tracked, Tracked.step, (turn_key cfg v (lib n)).1, hsent]
  | updateAllVmInfo query =>
    obtain ⟨v, hv, rfl⟩ := List.mem_map.mp hv'
    obtain ⟨r, hstat, hfpr, hr⟩ := getVmInfo_getD_eq_withReport (query v) v
    refine .inr ⟨v, hv, (update_key query v).1.symm, .report r, .info query r hstat hfpr, ?_⟩
    rw [hr]
    rfl
  | findAddVMToList domid alloc probe =>
    rcases findAddVMToList_cases s.list domid alloc probe with ⟨n, hn, he⟩ | ⟨v, hv, _, he⟩
    · simp only [step, he] at hv'
      exact .inr ⟨v', hv', rfl, .setRef v'.refcount, .event _ _ rfl, rfl⟩
    · simp only [step, he] at hv'
      rcases List.mem_cons.mp hv' with rfl | hv'
      · obtain ⟨hnew, hva, hvd, _⟩ := initAndCheckVM_isNew hv
        refine .inl ⟨hnew, hva, ?_, by simp only [step, he], alloc, probe, by rw [hvd]⟩
        have hnone : sentTo v'.addr s.log = [] := by
          apply sentTo_eq_nil
          intro c hc
          have hlt := h.log_lt c hc
          omega
        simp only [State.tracked, step, hnone]
      · exact .inr ⟨v', hv', rfl, .setRef v'.refcount, .event _ _ rfl, rfl⟩
  | findDeleteVMFromList name =>
    obtain ⟨v, hv, n, rfl⟩ := (findDeleteVMFromList_spec h.list name).2.source v' hv'
    exact .inr ⟨v, hv, rfl, .setRef n, .event _ n rfl, rfl⟩
  | freeAllVM =>
    obtain ⟨v, hv, n, rfl⟩ := (freeAllVM_spec h.list).2.source v' hv'
    exact .inr ⟨v, hv, rfl, .setRef n, .event _ n rfl, rfl⟩

/-- A record that stays listed moves on by one act. -/
theorem step_listed {cfg : BalloonConfig} {s : State} (h : s.Wf) {a : Section}
    {v v' : VirtualMachineInfo} (hv : v ∈ s.list.vms) (hv' : v' ∈ (step cfg s a).list.vms)
    (ha : v'.addr = v.addr) :
    ∃ act, Performs v a act ∧ (step cfg s a).tracked v' = (s.tracked v).step cfg act := by
  rcases step_tracked h a hv' with ⟨_, hnew, _⟩ | ⟨u, hu, hua, hact⟩
  · have hlt := h.list.addr_lt v hv
    omega
  · obtain rfl := eq_of_key_eq (·.addr) h.list.addr_nodup hu hv (hua.trans ha)
    exact hact

/-- A record that is still listed after the cycle section took its turn in it. -/
theorem cycle_listed {cfg : BalloonConfig} {s : State} (h : s.Wf) {lib : Libvirt}
    {v v' : VirtualMachineInfo} (hv : v ∈ s.list.vms)
    (hv' : v' ∈ (step cfg s (.balloonCycle lib)).list.vms) (ha : v'.addr = v.addr) :
    ∃ n, v' = (turn cfg v (lib n)).1 ∧
      sentTo v.addr (step cfg s (.balloonCycle lib)).log =
        (turn cfg v (lib n)).2 ++ sentTo v.addr s.log := by
  obtain ⟨act, hp, he⟩ := step_listed h hv hv' ha
  cases hp with
  | event _ _ hne => cases hne
  | cycle _ n =>
    have hsent : sentTo v'.addr (step cfg s (.balloonCycle lib)).log =
        (turn cfg v (lib n)).2 ++ sentTo v.addr s.log := congrArg Tracked.sent he
    rw [ha] at hsent
    exact ⟨n, congrArg Tracked.vm he, hsent⟩

/-- The records at one address have had a property `P` in every state of a run so far: the
condition under which their lives have it all along. -/
def Keeps (cfg : BalloonConfig) (addr : Nat) (P : VirtualMachineInfo → Prop) (s : State)
    (a : Section) : Prop :=
  ∀ v ∈ (step cfg s a).list.vms, v.addr = addr → P v

instance (cfg : BalloonConfig) (addr : Nat) (P : VirtualMachineInfo → Prop) [DecidablePred P]
    (s : State) (a : Section) : Decidable (Keeps cfg addr P s a) :=
  inferInstanceAs (Decidable (∀ v ∈ (step cfg s a).list.vms, v.addr = addr → P v))

/-- In a run that keeps `P` at an address, the record listed there has lived with `P`. -/
theorem life_of_keeps {cfg : BalloonConfig} {addr : Nat} {P : VirtualMachineInfo → Prop}
    {acts : List Section} (h : StepsMeet (step cfg) (Keeps cfg addr P) State.init acts)
    {v : VirtualMachineInfo} (hv : v ∈ (run (step cfg) State.init acts).list.vms)
    (ha : v.addr = addr) : Life cfg P ((run (step cfg) State.init acts).tracked v) := by
  have hinv := h.invariant
    (I := fun s ↦ s.Wf ∧ ∀ v ∈ s.list.vms, v.addr = addr → Life cfg P (s.tracked v))
    ⟨State.wf_init, fun _ hm ↦ absurd hm List.not_mem_nil⟩ ?_
  · exact hinv.2 v hv ha
  · intro s a hkeep ⟨hwf, hlife⟩
    refine ⟨hwf.step cfg a, fun w hw hwa ↦ ?_⟩
    have hp := hkeep w hw hwa
    rcases step_tracked hwf a hw with ⟨hnew, _, he, _⟩ | ⟨u, hu, hua, act, _, he⟩
    · rw [he]
      exact .create w hnew hp
    · have hvm : ((s.tracked u).step cfg act).vm = w := (congrArg Tracked.vm he).symm
      rw [he]
      exact .step _ act (hlife u hu (hua.trans hwa)) (hvm.symm ▸ hp)

/-- Every listed record of a reachable state has lived a record's life. -/
theorem life_of_reachable {cfg : BalloonConfig} {s : State}
    (h : Reachable (step cfg) State.init s) {v : VirtualMachineInfo} (hv : v ∈ s.list.vms) :
    Life cfg (fun _ ↦ True) (s.tracked v) := by
  obtain ⟨acts, rfl⟩ := h
  exact life_of_keeps (stepsMeet_of_forall (fun _ _ _ _ _ ↦ trivial) _ acts) hv rfl

/-! ### The balloon record invariant -/

/-- In every state reachable by locked sections in any order, with any answers of libvirt,
every listed record satisfies the balloon invariant with the commands sent for it. -/
theorem balloonInv_of_reachable (cfg : BalloonConfig) (acts : List Section) :
    ∀ v ∈ (run (step cfg) State.init acts).list.vms,
      BalloonInv v (sentTo v.addr (run (step cfg) State.init acts).log) := by
  intro v hv
  exact (life_of_reachable ⟨acts, rfl⟩ hv).balloonInv

/-- libvirt's answer for a guest that was restored from a snapshot taken with half of its
8 GiB ballooned away. -/
def restoredProbe : DomainProbe := ⟨some "restored", 0, 0, some ⟨1, 8388608, 4194304⟩⟩

/-- Statistics of that guest. -/
def restoredStats : StatsReply :=
  .records [⟨1, [⟨.balloonCurrent, 4194304⟩, ⟨.balloonMaximum, 8388608⟩,
    ⟨.balloonAvailable, 4000000⟩, ⟨.balloonUnused, 3000000⟩]⟩]

/-- The restored guest is added and gets its step-1 command, which libvirt accepts or not. -/
def restoredRun (ok : Bool) : List Section :=
  [.findAddVMToList 1 true (some restoredProbe), .updateAllVmInfoAndMemoryStats restoredStats,
    .balloonCycle (fun _ ↦ ok)]

/-- The invariant at the restored guest after its command was accepted. -/
theorem balloonInv_of_reachable_restored :
    ∃ v ∈ (run (step .default) State.init (restoredRun true)).list.vms, v.ballooning = true ∧
      BalloonInv v (sentTo v.addr (run (step .default) State.init (restoredRun true)).log) := by
  obtain ⟨v, hv, hb⟩ : ∃ v ∈ (run (step .default) State.init (restoredRun true)).list.vms,
      v.ballooning = true := by decide
  exact ⟨v, hv, hb, balloonInv_of_reachable .default (restoredRun true) v hv⟩

end Memlink
