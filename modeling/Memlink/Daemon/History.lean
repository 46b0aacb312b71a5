import Memlink.Daemon.Commands

/-!
# The history of one record

Claims about what a record went through, such as how often `DoBallooning` evaluated it, are
claims about a history: the events of its turns in the cycle sections, newest first. A law
between a record and its history is proved once for every way a section treats a record and
then holds in every run.
-/

namespace Memlink

open Transition

universe u

variable {ε : Type u}

/-- The commands a section sends to the record at one address. -/
def sentIn (cfg : BalloonConfig) (addr : Nat) (s : State) (a : Section) : Log :=
  sentTo addr (newCommands s.log (step cfg s a).log)

/-- In the cycle section every listed record takes its turn and gets the commands of it. -/
theorem cycle_turn_sentIn (cfg : BalloonConfig) {s : State} (h : s.Wf) (lib : Libvirt)
    {v : VirtualMachineInfo} (hv : v ∈ s.list.vms) :
    ∃ n, (turn cfg v (lib n)).1 ∈ (step cfg s (.balloonCycle lib)).list.vms ∧
      sentIn cfg v.addr s (.balloonCycle lib) = (turn cfg v (lib n)).2 := by
  obtain ⟨n, hmem, hsent⟩ := cycle_turn h lib hv
  obtain ⟨sent, he, _⟩ := cycle_sends h cfg lib
  refine ⟨n, hmem, ?_⟩
  rw [he, sentTo_append] at hsent
  unfold sentIn
  rw [he, newCommands_append]
  exact List.append_cancel_right hsent

/-- A cycle section adds to the commands of an address those it sends there. -/
theorem sentTo_cycle {cfg : BalloonConfig} {s : State} (h : s.Wf) (addr : Nat) (lib : Libvirt) :
    sentTo addr (step cfg s (.balloonCycle lib)).log =
      sentIn cfg addr s (.balloonCycle lib) ++ sentTo addr s.log := by
  obtain ⟨sent, he, _⟩ := cycle_sends h cfg lib
  unfold sentIn
  rw [he, newCommands_append, sentTo_append]

/-- What the record at one address goes through in a section: `born` when it is inserted, and
in its turn what `onTurn` sees in the record before the cycle and the commands sent for it. -/
def recordEvents (cfg : BalloonConfig) (born : List ε)
    (onTurn : VirtualMachineInfo → Log → List ε) (addr : Nat) (s : State) (a : Section) :
    List ε :=
  match s.list.vms.find? (·.addr = addr) with
  | some v =>
    match a with
    | .balloonCycle _ => onTurn v (sentIn cfg addr s a)
    | _ => []
  | none => if addr ∈ (step cfg s a).list.vms.map (·.addr) then born else []

/-- The events of the record at one address in a run, newest first. -/
def recordHistory (cfg : BalloonConfig) (born : List ε)
    (onTurn : VirtualMachineInfo → Log → List ε) (addr : Nat) (s : State)
    (acts : List Section) : List ε :=
  history (recordEvents cfg born onTurn addr) (step cfg) s acts

/-- A law between a record and its history: true of new records, independent of what libvirt
reports and of the reference count, and kept by turns. -/
structure RecordLaw (cfg : BalloonConfig) (born : List ε)
    (onTurn : VirtualMachineInfo → Log → List ε)
    (Law : VirtualMachineInfo → List ε → Prop) : Prop where
  new : ∀ v, IsNew v → Law v born
  report : ∀ v h r, Law v h → Law (v.withReport r) h
  setRef : ∀ v h n, Law v h → Law { v with refcount := n } h
  turn : ∀ v h ok sent, BalloonInv v sent → Law v h →
    Law (turn cfg v ok).1 (onTurn v (turn cfg v ok).2 ++ h)

section Law

variable {cfg : BalloonConfig} {born : List ε} {onTurn : VirtualMachineInfo → Log → List ε}
  {addr : Nat} {s : State} {v : VirtualMachineInfo}

/-- A listed record is what the search by its address finds. -/
theorem find_addr (h : s.Wf) (hv : v ∈ s.list.vms) :
    s.list.vms.find? (·.addr = v.addr) = some v :=
  find?_eq_some_of_nodup (·.addr) h.list.addr_nodup hv

/-- A cycle section shows the turn of a listed record. -/
theorem recordEvents_cycle (h : s.Wf) (hv : v ∈ s.list.vms) (lib : Libvirt) :
    recordEvents cfg born onTurn v.addr s (.balloonCycle lib) =
      onTurn v (sentIn cfg v.addr s (.balloonCycle lib)) := by
  simp only [recordEvents, find_addr h hv]

/-- The other sections show nothing of a listed record. -/
theorem recordEvents_other (h : s.Wf) (hv : v ∈ s.list.vms) {a : Section}
    (ha : ∀ lib, a ≠ .balloonCycle lib) : recordEvents cfg born onTurn v.addr s a = [] := by
  cases a with
  | balloonCycle lib => exact absurd rfl (ha lib)
  | _ => simp only [recordEvents, find_addr h hv]

/-- Before and after its time a record shows nothing, and its insertion shows `born`. -/
theorem recordEvents_unlisted (hno : addr ∉ s.list.vms.map (·.addr)) (a : Section) :
    recordEvents cfg born onTurn addr s a =
      if addr ∈ (step cfg s a).list.vms.map (·.addr) then born else [] := by
  have hnone : s.list.vms.find? (·.addr = addr) = none := by
    apply List.find?_eq_none.mpr
    intro v hv
    simpa using fun he ↦ hno (List.mem_map.mpr ⟨v, hv, he⟩)
  simp only [recordEvents, hnone]

variable {Law : VirtualMachineInfo → List ε → Prop}

private theorem RecordLaw.step_listed (hlaw : RecordLaw cfg born onTurn Law)
    (hr : Reachable (step cfg) State.init s) {a : Section} (hv : v ∈ s.list.vms)
    {seen : List ε} (h : Law v seen) {v' : VirtualMachineInfo}
    (hv' : v' ∈ (step cfg s a).list.vms) (ha : v'.addr = v.addr) :
    Law v' (recordEvents cfg born onTurn v.addr s a ++ seen) := by
  have hwf := wf_of_reachable hr
  obtain ⟨act, hp, he⟩ := Memlink.step_listed hwf hv hv' ha
  have hvm : v' = ((s.tracked v).step cfg act).vm := congrArg Tracked.vm he
  have hquiet : (∀ lib, a ≠ .balloonCycle lib) →
      recordEvents cfg born onTurn v.addr s a ++ seen = seen := by
    intro hne
    rw [recordEvents_other hwf hv hne]
    rfl
  cases hp with
  | stats reply r =>
    rw [hquiet (fun _ hne ↦ by cases hne), hvm]
    exact hlaw.report v seen r h
  | info query r =>
    rw [hquiet (fun _ hne ↦ by cases hne), hvm]
    exact hlaw.report v seen r h
  | event _ n hne =>
    rw [hquiet (by rintro lib rfl; cases hne), hvm]
    exact hlaw.setRef v seen n h
  | cycle lib =>
    obtain ⟨n, hmem, hsent⟩ := cycle_turn_sentIn cfg hwf lib hv
    obtain rfl := eq_of_key_eq (·.addr) (hwf.step cfg _).list.addr_nodup hv' hmem
      (ha.trans (turn_key cfg v (lib n)).1.symm)
    rw [recordEvents_cycle hwf hv, hsent]
    exact hlaw.turn v seen (lib n) _ (life_of_reachable hr hv).balloonInv h

/-- In every run a law holds between each record and its history, and what it says about the
history alone holds of the records that are gone, too. -/
theorem RecordLaw.holds (hlaw : RecordLaw cfg born onTurn Law) {Past : List ε → Prop}
    (hnil : Past []) (hpast : ∀ v h, Law v h → Past h) (addr : Nat) (acts : List Section) :
    Past (recordHistory cfg born onTurn addr State.init acts) ∧
      ∀ v ∈ (run (step cfg) State.init acts).list.vms, v.addr = addr →
        Law v (recordHistory cfg born onTurn addr State.init acts) := by
  have hall : StepsMeet (step cfg) (fun _ _ ↦ True) State.init acts :=
    stepsMeet_of_forall (fun _ _ ↦ trivial) _ _
  have hinv := hall.history_invariant (recordEvents cfg born onTurn addr)
    (I := fun s seen ↦ Reachable (step cfg) State.init s ∧
      (s.list.nextAddr ≤ addr → seen = []) ∧ Past seen ∧
        ∀ v ∈ s.list.vms, v.addr = addr → Law v seen)
    ⟨Reachable.init _ _, fun _ ↦ rfl, hnil, fun _ hv ↦ absurd hv List.not_mem_nil⟩ ?_
  · exact hinv.2.2
  · intro s seen a _ ⟨hr, hunborn, hp, hlisted⟩
    have hwf := wf_of_reachable hr
    have hnext := nextAddr_le_step hwf.list cfg a
    by_cases hin : addr ∈ s.list.vms.map (·.addr)
    · obtain ⟨v, hv, rfl⟩ := List.mem_map.mp hin
      have hold := hwf.list.addr_lt v hv
      have hkeep : ∀ v' ∈ (step cfg s a).list.vms, v'.addr = v.addr →
          Law v' (recordEvents cfg born onTurn v.addr s a ++ seen) :=
        fun v' hv' ha ↦ hlaw.step_listed hr hv (hlisted v hv rfl) hv' ha
      refine ⟨hr.step a, fun hle ↦ by omega, ?_, hkeep⟩
      cases a with
      | balloonCycle lib =>
        obtain ⟨n, hmem, _⟩ := cycle_turn_sentIn cfg hwf lib hv
        exact hpast _ _ (hkeep _ hmem (turn_key cfg v (lib n)).1)
      | _ =>
        rw [recordEvents_other hwf hv (fun _ hne ↦ by cases hne)]
        exact hp
    · rw [recordEvents_unlisted hin]
      have hnew : ∀ v ∈ (step cfg s a).list.vms, v.addr = addr →
          IsNew v ∧ addr = s.list.nextAddr := by
        intro v hv ha
        rcases step_tracked hwf a hv with ⟨hn, hna, _⟩ | ⟨u, hu, hua, _⟩
        · exact ⟨hn, ha.symm.trans hna⟩
        · exact absurd (List.mem_map.mpr ⟨u, hu, hua.trans ha⟩) hin
      split
      · next hin' =>
        obtain ⟨v, hv, ha⟩ := List.mem_map.mp hin'
        have hlt := (hwf.step cfg a).list.addr_lt v hv
        obtain rfl := hunborn (Nat.le_of_eq (hnew v hv ha).2.symm)
        rw [List.append_nil]
        exact ⟨hr.step a, fun hle ↦ by omega, hpast v _ (hlaw.new v (hnew v hv ha).1),
          fun w hw hwa ↦ hlaw.new w (hnew w hw hwa).1⟩
      · next hin' =>
        exact ⟨hr.step a, fun hle ↦ hunborn (Nat.le_trans hnext hle), hp,
          fun v hv ha ↦ absurd (List.mem_map.mpr ⟨v, hv, ha⟩) hin'⟩

end Law

end Memlink
