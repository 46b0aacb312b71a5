import Mathlib.Data.List.Forall2
import Memlink.Daemon.Events
import Memlink.Daemon.History
import Memlink.Vm.Refresh

/-!
# One VM beside the others

The locked sections treat all VMs in one loop over the list (`memlink_core.c:203–257`, `279–306`,
`libvirt_helper.c:219–307`). Here the daemon is projected to a single record: what happens to it
and what is sent for it is computed from what libvirt says about this VM alone.
-/

namespace Memlink

open Transition

/-- What libvirt says about one VM: its statistics, unless there is no connection, the reply of
`virDomainGetInfo`, and the answer to a command, if one is sent. -/
inductive OwnInput where
  | stats (params : Option (List TypedParameter))
  | info (reply : Option DomainInfo)
  | answer (ok : Option Bool)
  deriving DecidableEq, Repr

/-- The part of a statistics reply that is about one domain. -/
def ownStats (domid : Int) : StatsReply → Option (List TypedParameter)
  | .noConnection => none
  | .failed => some []
  | .records rs => some (paramsFor rs domid)

/-- libvirt says the same twice; of an answer, only where a command was sent both times. -/
def OwnInput.Agrees : OwnInput → OwnInput → Prop
  | .stats params, .stats params' => params = params'
  | .info reply, .info reply' => reply = reply'
  | .answer ok, .answer ok' => ∀ b ∈ ok, ∀ b' ∈ ok', b = b'
  | _, _ => False

instance : ∀ i j : OwnInput, Decidable (i.Agrees j)
  | .stats params, .stats params' => inferInstanceAs (Decidable (params = params'))
  | .info reply, .info reply' => inferInstanceAs (Decidable (reply = reply'))
  | .answer ok, .answer ok' => inferInstanceAs (Decidable (∀ b ∈ ok, ∀ b' ∈ ok', b = b'))
  | .stats _, .info _ => .isFalse id
  | .stats _, .answer _ => .isFalse id
  | .info _, .stats _ => .isFalse id
  | .info _, .answer _ => .isFalse id
  | .answer _, .stats _ => .isFalse id
  | .answer _, .info _ => .isFalse id

/-- A record on its own: one input, one step. -/
def ownStep (cfg : BalloonConfig) (t : Tracked) : OwnInput → Tracked
  | .stats none => t
  | .stats (some params) => ⟨reported params t.vm, t.sent⟩
  | .info reply => ⟨(getVmInfo reply t.vm).getD t.vm, t.sent⟩
  | .answer ok =>
    ⟨(turn cfg t.vm (ok.getD true)).1, (turn cfg t.vm (ok.getD true)).2 ++ t.sent⟩

/-- The input of a section for the record at an address. -/
def ownInput (cfg : BalloonConfig) (addr : Nat) (s : State) (a : Section) : List OwnInput :=
  match s.list.vms.find? (·.addr = addr) with
  | none => []
  | some v =>
    match a with
    | .updateAllVmInfoAndMemoryStats reply => [.stats (ownStats v.domid reply)]
    | .updateAllVmInfo query => [.info (query v)]
    | .balloonCycle _ => [.answer ((sentIn cfg addr s a).head?.map (·.accepted))]
    | _ => []

/-- The inputs of a run for the record at an address, oldest first. -/
def ownInputs (cfg : BalloonConfig) (addr : Nat) (s : State) (acts : List Section) :
    List OwnInput :=
  (history (ownInput cfg addr) (step cfg) s acts).reverse

/-- The record at an address stays on the list. -/
def StaysListed (cfg : BalloonConfig) (addr : Nat) (s : State) (a : Section) : Prop :=
  addr ∈ (step cfg s a).list.vms.map (·.addr)

instance (cfg : BalloonConfig) (addr : Nat) (s : State) (a : Section) :
    Decidable (StaysListed cfg addr s a) :=
  inferInstanceAs (Decidable (addr ∈ (step cfg s a).list.vms.map (·.addr)))

/-! ### One section -/

/-- A section has at most one input for a record. -/
theorem ownInput_reverse (cfg : BalloonConfig) (addr : Nat) (s : State) (a : Section) :
    (ownInput cfg addr s a).reverse = ownInput cfg addr s a := by
  unfold ownInput
  cases s.list.vms.find? (·.addr = addr) with
  | none => rfl
  | some v => cases a <;> rfl

/-- A reply leaves a record as its own part of the reply says. -/
theorem refresh_eq_ownStats (reply : StatsReply) (v : VirtualMachineInfo) :
    refresh reply v = match ownStats v.domid reply with
      | none => v
      | some params => reported params v := by
  cases reply with
  | noConnection => rfl
  | failed => exact refresh_records [] v
  | records rs => exact refresh_records rs v

/-- An outcome without a command does not depend on the answer. -/
theorem Outcome.silent {cfg : BalloonConfig} {v v' : VirtualMachineInfo} {ok : Bool}
    (h : Outcome cfg v ok v' []) (ok' : Bool) : Outcome cfg v ok' v' [] := by
  cases h with
  | skipped hne hnc => exact .skipped hne hnc
  | counted hev hc => exact .counted hev hc
  | untargeted hev hc ht => exact .untargeted hev hc ht
  | inflating hck hi hd hat hslow => exact .inflating hck hi hd hat hslow
  | finished hck hi hd hs => exact .finished hck hi hd hs
  | deflating hck hi hd hs hle => exact .deflating hck hi hd hs hle

/-- The turn of a record is determined by the answer to the command it sends, if any. -/
theorem turn_of_answer (cfg : BalloonConfig) (v : VirtualMachineInfo) (ok : Bool) :
    turn cfg v (((turn cfg v ok).2.head?.map (·.accepted)).getD true) = turn cfg v ok := by
  have hout := turn_outcome cfg v ok
  have hacc := (turn_commands cfg v ok).2
  cases hcmds : (turn cfg v ok).2 with
  | nil =>
    rw [hcmds] at hout
    rw [turn_eq_of_outcome (hout.silent _), ← hcmds]
  | cons c cmds =>
    have hok := (hacc c (by rw [hcmds]; exact List.mem_cons_self)).2.2
    simp [hok]

private theorem refcount_kept {cfg : BalloonConfig} {s : State} (h : s.Wf) {a : Section}
    (ha : ∀ n, ∀ v ∈ s.list.vms, ¬ Performs v a (.setRef n))
    (hnew : ∀ domid alloc probe, a ≠ .findAddVMToList domid alloc probe)
    (hone : s.list.Unshared) : (step cfg s a).list.Unshared := by
  intro v' hv'
  rcases step_tracked h a hv' with ⟨_, _, _, _, alloc, probe, hadd⟩ | ⟨v, hv, _, act, hp, he⟩
  · exact absurd hadd (hnew _ alloc probe)
  · have hvm : v' = ((s.tracked v).step cfg act).vm := congrArg Tracked.vm he
    rw [hvm]
    cases act with
    | report r => exact hone v hv
    | turn ok =>
      obtain ⟨c, hc⟩ := turn_eq_withControl cfg v ok
      change (turn cfg v ok).1.refcount = 1
      rw [hc]
      exact hone v hv
    | setRef n => exact absurd hp (ha n v hv)

/-- The event thread never holds a second reference, so every listed record has one. -/
theorem unshared_of_reachable {cfg : BalloonConfig} {s : State}
    (h : Reachable (step cfg) State.init s) : s.list.Unshared := by
  refine (h.invariant (I := fun s ↦ s.Wf ∧ s.list.Unshared)
    ⟨State.wf_init, fun _ hv ↦ absurd hv List.not_mem_nil⟩ ?_).2
  intro s a ⟨hwf, hone⟩
  refine ⟨hwf.step cfg a, ?_⟩
  cases a with
  | findAddVMToList domid alloc probe =>
    exact findAddVMToList_unshared hone domid alloc probe
  | findDeleteVMFromList name =>
    intro v hv
    simp only [step, findDeleteVMFromList_unshared hwf.list hone] at hv
    exact hone v (List.mem_of_mem_eraseP hv)
  | freeAllVM =>
    intro v hv
    rw [show (step cfg s .freeAllVM).list.vms = [] from freeAllVM_unshared hwf.list hone] at hv
    cases hv
  | updateAllVmInfoAndMemoryStats reply =>
    refine refcount_kept hwf (fun n v _ hp ↦ ?_) (fun _ _ _ ha ↦ by cases ha) hone
    cases hp with
    | event _ _ hne => cases hne
  | balloonCycle lib =>
    refine refcount_kept hwf (fun n v _ hp ↦ ?_) (fun _ _ _ ha ↦ by cases ha) hone
    cases hp with
    | event _ _ hne => cases hne
  | updateAllVmInfo query =>
    intro v' hv'
    obtain ⟨v, hv, rfl⟩ := List.mem_map.mp hv'
    obtain ⟨r, _, _, hr⟩ := getVmInfo_getD_eq_withReport (query v) v
    rw [hr]
    exact hone v hv

/-- The answers among the inputs are those to the commands that the record sends. -/
def Answered (cfg : BalloonConfig) : Tracked → List OwnInput → Prop
  | _, [] => True
  | t, i :: inputs =>
    (∀ answer, i = .answer answer →
      answer = (turn cfg t.vm (answer.getD true)).2.head?.map (·.accepted)) ∧
      Answered cfg (ownStep cfg t i) inputs

/-- Inputs one after the other. -/
theorem answered_append {cfg : BalloonConfig} {t : Tracked} {is js : List OwnInput} :
    Answered cfg t (is ++ js) ↔ Answered cfg t is ∧ Answered cfg (run (ownStep cfg) t is) js := by
  induction is generalizing t with
  | nil => simp only [List.nil_append, Answered, run, List.foldl_nil, true_and]
  | cons i is ih => rw [List.cons_append, Answered, Answered, ih, run_cons, and_assoc]

/-- A turn that sends nothing with one answer sends nothing with any. -/
theorem turn_silent {cfg : BalloonConfig} {v : VirtualMachineInfo} {ok : Bool}
    (h : (turn cfg v ok).2.head?.map (·.accepted) = none) (ok' : Bool) :
    (turn cfg v ok').2.head?.map (·.accepted) = none := by
  have hnil : (turn cfg v ok).2 = [] := by simpa using h
  have hout := turn_outcome cfg v ok
  rw [hnil] at hout
  rw [turn_eq_of_outcome (hout.silent ok')]
  rfl

/-- Two answers to the command of one turn are the same if they agree. -/
theorem answer_unique {cfg : BalloonConfig} {v : VirtualMachineInfo} {x y : Option Bool}
    (hx : x = (turn cfg v (x.getD true)).2.head?.map (·.accepted))
    (hy : y = (turn cfg v (y.getD true)).2.head?.map (·.accepted))
    (h : ∀ b ∈ x, ∀ b' ∈ y, b = b') : x = y := by
  -- Whether a command is sent does not depend on the answer.
  cases x with
  | none =>
    rw [turn_silent hx.symm] at hy
    exact hy.symm
  | some ok =>
    cases y with
    | none =>
      rw [turn_silent hy.symm] at hx
      cases hx
    | some ok' => rw [h ok rfl ok' rfl]

/-- Inputs that agree are the same, or answers of which one may be missing. -/
theorem OwnInput.Agrees.cases {i j : OwnInput} (h : i.Agrees j) :
    i = j ∨ ∃ x y, i = .answer x ∧ j = .answer y ∧ ∀ b ∈ x, ∀ b' ∈ y, b = b' := by
  cases i with
  | stats params =>
    cases j with
    | stats params' => exact .inl (congrArg OwnInput.stats h)
    | info reply => exact h.elim
    | answer y => exact h.elim
  | info reply =>
    cases j with
    | stats params => exact h.elim
    | info reply' => exact .inl (congrArg OwnInput.info h)
    | answer y => exact h.elim
  | answer x =>
    cases j with
    | stats params => exact h.elim
    | info reply => exact h.elim
    | answer y => exact .inr ⟨x, y, rfl, rfl, h⟩

/-- Inputs that agree, with the answers to what one record sends, are the same. -/
theorem Answered.eq_of_agrees {cfg : BalloonConfig} {t : Tracked} {is js : List OwnInput}
    (hi : Answered cfg t is) (hj : Answered cfg t js) (h : List.Forall₂ OwnInput.Agrees is js) :
    is = js := by
  induction h generalizing t with
  | nil => rfl
  | @cons i j is js hij _ ih =>
    have heq : i = j := by
      rcases hij.cases with heq | ⟨x, y, rfl, rfl, hagree⟩
      · exact heq
      · rw [answer_unique (hi.1 x rfl) (hj.1 y rfl) hagree]
    subst heq
    rw [ih hi.2 hj.2]

/-- A section leaves a listed record as the record's own inputs say. -/
theorem tracked_step {cfg : BalloonConfig} {s : State}
    (h : Reachable (step cfg) State.init s) {a : Section} {v v' : VirtualMachineInfo}
    (hv : v ∈ s.list.vms) (hv' : v' ∈ (step cfg s a).list.vms) (ha : v'.addr = v.addr) :
    (step cfg s a).tracked v' = run (ownStep cfg) (s.tracked v) (ownInput cfg v.addr s a) := by
  have hwf := wf_of_reachable h
  have hone := unshared_of_reachable h
  have hsame : ∀ w ∈ s.list.vms, w.addr = v.addr → w = v :=
    fun w hw he ↦ eq_of_key_eq (·.addr) hwf.list.addr_nodup hw hv he
  simp only [ownInput, find_addr hwf hv]
  cases a with
  | updateAllVmInfoAndMemoryStats reply =>
    simp only [step, getAllDomainsStats_eq_map reply _ hwf.list.domid_nodup] at hv'
    obtain ⟨w, hw, rfl⟩ := List.mem_map.mp hv'
    obtain ⟨r, hr⟩ := refresh_eq_withReport reply w
    obtain rfl := hsame w hw (by rw [← ha, hr]; rfl)
    have hstats := refresh_eq_ownStats reply w
    simp only [State.tracked, step, ha, run, List.foldl_cons, List.foldl_nil, ownStep]
    rw [hstats]
    cases ownStats w.domid reply <;> rfl
  | balloonCycle lib =>
    obtain ⟨n, hmem, hsent⟩ := cycle_turn_sentIn cfg hwf lib hv
    have hkey := (turn_key cfg v (lib n)).1
    obtain rfl := eq_of_key_eq (·.addr) (hwf.step cfg (.balloonCycle lib)).list.addr_nodup hv' hmem
      (ha.trans hkey.symm)
    have hanswer := turn_of_answer cfg v (lib n)
    simp only [State.tracked, hkey, sentTo_cycle hwf, hsent, run, List.foldl_cons,
      List.foldl_nil, ownStep, hanswer]
  | updateAllVmInfo query =>
    obtain ⟨w, hw, rfl⟩ := List.mem_map.mp hv'
    obtain ⟨r, _, _, hr⟩ := getVmInfo_getD_eq_withReport (query w) w
    obtain rfl := hsame w hw (by rw [← ha, hr]; rfl)
    simp only [State.tracked, step, ha, run, List.foldl_cons, List.foldl_nil, ownStep]
  | findAddVMToList domid alloc probe =>
    have hold : v' ∈ s.list.vms := by
      rcases findAddVMToList_cases s.list domid alloc probe with ⟨n, _, he⟩ | ⟨w, hw, _, he⟩
      · simpa only [step, he] using hv'
      · simp only [step, he] at hv'
        rcases List.mem_cons.mp hv' with rfl | hv'
        · have hnew := (initAndCheckVM_isNew hw).2.1
          have hlt := hwf.list.addr_lt v hv
          omega
        · exact hv'
    obtain rfl := hsame v' hold ha
    rfl
  | findDeleteVMFromList name =>
    simp only [step, findDeleteVMFromList_unshared hwf.list hone] at hv'
    obtain rfl := hsame v' (List.mem_of_mem_eraseP hv') ha
    rfl
  | freeAllVM =>
    rw [show (step cfg s .freeAllVM).list.vms = [] from freeAllVM_unshared hwf.list hone] at hv'
    cases hv'

/-- The answer in a section's input is that to the command of the record. -/
theorem answered_ownInput (cfg : BalloonConfig) {s : State} (hwf : s.Wf)
    {v : VirtualMachineInfo} (hv : v ∈ s.list.vms) (a : Section) :
    Answered cfg (s.tracked v) (ownInput cfg v.addr s a) := by
  simp only [ownInput, find_addr hwf hv]
  cases a with
  | balloonCycle lib =>
    obtain ⟨n, _, hsent⟩ := cycle_turn_sentIn cfg hwf lib hv
    refine ⟨fun answer he ↦ ?_, trivial⟩
    obtain rfl := OwnInput.answer.inj he
    rw [hsent, State.tracked, turn_of_answer]
  | updateAllVmInfoAndMemoryStats reply =>
    refine ⟨fun answer he ↦ ?_, trivial⟩
    cases he
  | updateAllVmInfo query =>
    refine ⟨fun answer he ↦ ?_, trivial⟩
    cases he
  | findAddVMToList domid alloc probe => exact trivial
  | findDeleteVMFromList name => exact trivial
  | freeAllVM => exact trivial

/-! ### Whole runs -/

/-- While a record stays listed, it is what its own inputs make of it, and these hold the answers
to the commands that it sends. -/
theorem tracked_run {cfg : BalloonConfig} {s : State} (h : Reachable (step cfg) State.init s)
    {v : VirtualMachineInfo} (hv : v ∈ s.list.vms) {acts : List Section}
    (hstays : StepsMeet (step cfg) (StaysListed cfg v.addr) s acts) :
    (∃ v' ∈ (run (step cfg) s acts).list.vms, v'.addr = v.addr ∧
      (run (step cfg) s acts).tracked v' =
        run (ownStep cfg) (s.tracked v) (ownInputs cfg v.addr s acts)) ∧
      Answered cfg (s.tracked v) (ownInputs cfg v.addr s acts) := by
  refine (hstays.history_invariant (ownInput cfg v.addr)
    (I := fun t seen ↦ Reachable (step cfg) State.init t ∧ (∃ w ∈ t.list.vms, w.addr = v.addr ∧
      t.tracked w = run (ownStep cfg) (s.tracked v) seen.reverse) ∧
      Answered cfg (s.tracked v) seen.reverse) ⟨h, ⟨v, hv, rfl, rfl⟩, trivial⟩ ?_).2
  intro t seen a hin ⟨ht, ⟨w, hw, hwa, he⟩, hans⟩
  obtain ⟨w', hw', ha⟩ := List.mem_map.mp hin
  have hstep := tracked_step ht hw hw' (ha.trans hwa.symm)
  have hnew := answered_ownInput cfg (wf_of_reachable ht) hw a
  rw [hwa] at hstep hnew
  rw [List.reverse_append, ownInput_reverse]
  refine ⟨ht.step a, ⟨w', hw', ha, ?_⟩, answered_append.mpr ⟨hans, ?_⟩⟩
  · rw [hstep, he, run_append]
  · rw [← he]
    exact hnew

/-- A VM is not affected by the others: from two states with the same record and the same
commands sent for it, whatever else is on the lists, and in two runs in which libvirt says the
same about this VM and gives the same answers where both send it a command, whatever it says
about others, the daemon ends with the same record and has sent the same commands. -/
theorem vm_isolated {cfg : BalloonConfig} {s₁ s₂ : State}
    (h₁ : Reachable (step cfg) State.init s₁) (h₂ : Reachable (step cfg) State.init s₂)
    {v : VirtualMachineInfo} (hv₁ : v ∈ s₁.list.vms) (hv₂ : v ∈ s₂.list.vms)
    (hlog : sentTo v.addr s₁.log = sentTo v.addr s₂.log) {acts₁ acts₂ : List Section}
    (hs₁ : StepsMeet (step cfg) (StaysListed cfg v.addr) s₁ acts₁)
    (hs₂ : StepsMeet (step cfg) (StaysListed cfg v.addr) s₂ acts₂)
    (hown : List.Forall₂ OwnInput.Agrees (ownInputs cfg v.addr s₁ acts₁)
      (ownInputs cfg v.addr s₂ acts₂)) :
    (∃ v' ∈ (run (step cfg) s₁ acts₁).list.vms, v'.addr = v.addr ∧
      v' ∈ (run (step cfg) s₂ acts₂).list.vms) ∧
      sentTo v.addr (run (step cfg) s₁ acts₁).log =
        sentTo v.addr (run (step cfg) s₂ acts₂).log := by
  obtain ⟨⟨v', hv', ha', he'⟩, hans₁⟩ := tracked_run h₁ hv₁ hs₁
  obtain ⟨⟨v'', hv'', ha'', he''⟩, hans₂⟩ := tracked_run h₂ hv₂ hs₂
  have hstart : s₁.tracked v = s₂.tracked v := by simp only [State.tracked, hlog]
  rw [hstart] at he' hans₁
  rw [hans₁.eq_of_agrees hans₂ hown, ← he''] at he'
  have hvm : v' = v'' := congrArg Tracked.vm he'
  have hsent : sentTo v'.addr (run (step cfg) s₁ acts₁).log =
      sentTo v''.addr (run (step cfg) s₂ acts₂).log := congrArg Tracked.sent he'
  rw [ha', ha''] at hsent
  exact ⟨⟨v', hv', ha', hvm ▸ hv''⟩, hsent⟩

/-- A second guest, restored from such a snapshot too. -/
def secondProbe : DomainProbe := ⟨some "second", 0, 0, some ⟨1, 8388608, 4194304⟩⟩

/-- Statistics of both guests. -/
def bothStats : StatsReply :=
  .records [⟨2, [⟨.balloonCurrent, 4194304⟩, ⟨.balloonMaximum, 8388608⟩,
      ⟨.balloonAvailable, 4000000⟩, ⟨.balloonUnused, 100000⟩]⟩,
    ⟨1, [⟨.balloonCurrent, 4194304⟩, ⟨.balloonMaximum, 8388608⟩,
      ⟨.balloonAvailable, 4000000⟩, ⟨.balloonUnused, 3000000⟩]⟩]

/-- The restored guest alone. -/
def aloneRun : List Section :=
  [.findAddVMToList 1 true (some restoredProbe), .updateAllVmInfoAndMemoryStats restoredStats]

/-- The restored guest beside a second one, which is visited first. -/
def besideRun : List Section :=
  [.findAddVMToList 1 true (some restoredProbe), .findAddVMToList 2 true (some secondProbe),
    .updateAllVmInfoAndMemoryStats bothStats]

/-- The second guest's command is refused and the guest goes away: the restored guest ends as if
it were alone. -/
theorem vm_isolated_beside :
    (∃ v' ∈ (run (step .default) State.init
        (aloneRun ++ [.balloonCycle (fun _ ↦ true)])).list.vms, v'.addr = 0 ∧
      v' ∈ (run (step .default) State.init
        (besideRun ++ [.balloonCycle (· == 1), .findDeleteVMFromList "second"])).list.vms) ∧
      sentTo 0 (run (step .default) State.init
        (aloneRun ++ [.balloonCycle (fun _ ↦ true)])).log =
      sentTo 0 (run (step .default) State.init
        (besideRun ++ [.balloonCycle (· == 1), .findDeleteVMFromList "second"])).log := by
  obtain ⟨v, hv₁, hv₂, ha⟩ : ∃ v ∈ (run (step .default) State.init aloneRun).list.vms,
      v ∈ (run (step .default) State.init besideRun).list.vms ∧ v.addr = 0 := by decide
  simp only [run_append, ← ha]
  refine vm_isolated ⟨aloneRun, rfl⟩ ⟨besideRun, rfl⟩ hv₁ hv₂ rfl ?_ ?_ ?_ <;> rw [ha]
  · decide
  · decide
  · decide

end Memlink
