import Mathlib.Logic.Function.Basic
import Memlink.Daemon.World

/-!
# The statistics period of the domains

With ballooning enabled, `InitAndCheckVM` asks libvirt to collect the memory statistics of a
domain (`memlink_driver.c:175–177`), and `BalloonBackVmMem` takes that back for every listed
domain at exit (`memlink_core.c:360–361`, `libvirt_helper.c:192–217`). libvirt may refuse either
call, which is only logged.
-/

namespace Memlink

open Transition Mirror

/-- `ENABLE_STATS_UPDATE_PERIOD`. -/
def enableStatsUpdatePeriod : Nat := 2

/-- `DISABLE_STATS_UPDATE_PERIOD`. -/
def disableStatsUpdatePeriod : Nat := 0

/-- The period that memlinkd last set for each domain id, if any. -/
abbrev Periods := Int → Option Nat

/-- `SetVmMemoryStatsPeriod`; `ok` is libvirt's answer. -/
def setVmMemoryStatsPeriod (periods : Periods) (domid : Int) (updateStats ok : Bool) : Periods :=
  let period := if updateStats then enableStatsUpdatePeriod else disableStatsUpdatePeriod
  if ok then Function.update periods domid (some period) else periods

/-- The daemon and libvirt, with the periods that were set. -/
structure Monitored where
  world : World
  periods : Periods

/-- Nothing was set. -/
def Monitored.init : Monitored := ⟨World.init, fun _ ↦ none⟩

/-- The ids for which `InitAndCheckVM` was successful in a step: those of the records that the
step adds. -/
def addedIds (w w' : World) : List Int :=
  (w'.events.list.vms.map (·.domid)).filter (· ∉ w.events.list.vms.map (·.domid))

/-- One step of the whole, with libvirt's answer to `SetVmMemoryStatsPeriod`. -/
def monitorStep (L : Libvirtd) (cfg : BalloonConfig) (enable : Bool) (m : Monitored)
    (a : WorldAct × Bool) : Monitored where
  world := worldStep L cfg m.world a.1
  periods :=
    if enable then
      (addedIds m.world (worldStep L cfg m.world a.1)).foldl
        (setVmMemoryStatsPeriod · · true a.2) m.periods
    else m.periods

/-- What the loop of `BalloonBackVmMem` makes of the periods. -/
def periodsAtExit (enable : Bool) (vms : List VirtualMachineInfo) (ok : Int → Bool)
    (periods : Periods) : Periods :=
  if enable then vms.foldl (fun p v ↦ setVmMemoryStatsPeriod p v.domid false (ok v.domid)) periods
  else periods

/-- The call changes the period of its domain only, and only if libvirt accepts. -/
theorem setVmMemoryStatsPeriod_apply (periods : Periods) (domid : Int) (updateStats ok : Bool)
    (i : Int) :
    setVmMemoryStatsPeriod periods domid updateStats ok i =
      if i = domid ∧ ok = true then
        some (if updateStats then enableStatsUpdatePeriod else disableStatsUpdatePeriod)
      else periods i := by
  unfold setVmMemoryStatsPeriod
  cases ok with
  | false => simp
  | true =>
    by_cases hi : i = domid
    · simp [hi]
    · simp [hi]

/-- Calls in a loop change the periods of their domains only. -/
theorem foldl_setPeriod {β : Type} (l : List β) (f : β → Int) (updateStats : Bool)
    (ok : β → Bool) (periods : Periods) (i : Int) :
    l.foldl (fun p b ↦ setVmMemoryStatsPeriod p (f b) updateStats (ok b)) periods i = periods i ∨
      i ∈ l.map f ∧
        l.foldl (fun p b ↦ setVmMemoryStatsPeriod p (f b) updateStats (ok b)) periods i =
          some (if updateStats then enableStatsUpdatePeriod else disableStatsUpdatePeriod) := by
  induction l generalizing periods with
  | nil => exact .inl rfl
  | cons b l ih =>
    rw [List.foldl_cons]
    rcases ih (setVmMemoryStatsPeriod periods (f b) updateStats (ok b)) with heq | ⟨hin, heq⟩
    · rw [heq, setVmMemoryStatsPeriod_apply]
      split
      · next hi => exact .inr ⟨hi.1 ▸ List.mem_cons_self, rfl⟩
      · exact .inl rfl
    · exact .inr ⟨List.mem_cons_of_mem (f b) hin, heq⟩

/-! ### While the daemon runs -/

/-- A step of the whole starts at most one domain, under the next id. -/
theorem worldStep_running (L : Libvirtd) (cfg : BalloonConfig) (w : World) (a : WorldAct) :
    w.events.nextDomid ≤ (worldStep L cfg w a).events.nextDomid ∧
      ∀ d ∈ (worldStep L cfg w a).events.running,
        d ∈ w.events.running ∨ d.id = w.events.nextDomid := by
  have hsame : ∀ s' : EventState, s'.running = w.events.running ∧
      s'.nextDomid = w.events.nextDomid → w.events.nextDomid ≤ s'.nextDomid ∧
      ∀ d ∈ s'.running, d ∈ w.events.running ∨ d.id = w.events.nextDomid := by
    rintro s' ⟨hrun, hnext⟩
    rw [hrun, hnext]
    exact ⟨Nat.le_refl _, fun d hd ↦ .inl hd⟩
  cases a with
  | event a =>
    cases a with
    | start name =>
      simp only [worldStep, eventStep]
      split
      · exact hsame _ ⟨rfl, rfl⟩
      · refine ⟨Nat.le_succ _, fun d hd ↦ ?_⟩
        rcases List.mem_append.mp hd with hd | hd
        · exact .inl hd
        · exact .inr (by rw [List.mem_singleton.mp hd])
    | stop domid =>
      simp only [worldStep, eventStep]
      split
      · exact ⟨Nat.le_refl _, fun d hd ↦ .inl (List.mem_of_mem_erase hd)⟩
      · exact hsame _ ⟨rfl, rfl⟩
    | _ =>
      apply hsame
      exact eventStep_running L w.events (fun _ ha ↦ by cases ha) (fun _ ha ↦ by cases ha)
  | fail f => exact hsame _ (failStep_kept w.events f).2
  | enter a ha => exact hsame _ ⟨rfl, rfl⟩
  | balloonBackVmMem lib => exact hsame _ ⟨rfl, rfl⟩

/-- Periods are set for ids that were used, and those of running domains for accepted ones. -/
structure PeriodInv (L : Libvirtd) (m : Monitored) : Prop where
  used : ∀ i, m.periods i ≠ none → i < m.world.events.nextDomid
  accepted : ∀ d ∈ m.world.events.running, m.periods d.id ≠ none → L.accepts d = true

/-- A step sets periods of accepted domains only. -/
theorem PeriodInv.step {L : Libvirtd} {cfg : BalloonConfig} {enable : Bool} {m : Monitored}
    (h : PeriodInv L m) (hr : Reachable (worldStep L cfg) World.init m.world)
    (hinv : EventInv L m.world.events) (a : WorldAct × Bool) :
    PeriodInv L (monitorStep L cfg enable m a) := by
  obtain ⟨hnext, hrun⟩ := worldStep_running L cfg m.world a.1
  -- A period is an old one, or it was set for a running domain that was just accepted.
  have hcases : ∀ i, (monitorStep L cfg enable m a).periods i ≠ none → m.periods i ≠ none ∨
      ∃ d ∈ m.world.events.running, d.id = i ∧ L.accepts d = true := by
    intro i hi
    simp only [monitorStep] at hi
    split at hi
    · rcases foldl_setPeriod (addedIds m.world (worldStep L cfg m.world a.1)) id true
        (fun _ ↦ a.2) m.periods i with heq | ⟨hin, _⟩
      · exact .inl fun hnone ↦ hi (heq.trans hnone)
      · rw [List.map_id] at hin
        obtain ⟨hin, hnew⟩ := List.mem_filter.mp hin
        obtain ⟨v, hv, rfl⟩ := List.mem_map.mp hin
        have hdom : domainOf v ∈ (worldStep L cfg m.world a.1).events.list.domains :=
          List.mem_map_of_mem hv
        rcases worldStep_mem_domains hr a.1 hdom with hold | ⟨hd, hacc⟩
        · obtain ⟨u, hu, he⟩ := List.mem_map.mp hold
          have hid : u.domid = v.domid := congrArg Item.id he
          exact absurd (List.mem_map.mpr ⟨u, hu, hid⟩) (by simpa using hnew)
        · exact .inr ⟨domainOf v, hd, rfl, hacc⟩
    · exact .inl hi
  have hseen : ∀ d ∈ m.world.events.running, d.id < m.world.events.nextDomid :=
    hinv.ordered.present_seen
  refine ⟨fun i hi ↦ ?_, fun d hd hi ↦ ?_⟩
  · change i < (worldStep L cfg m.world a.1).events.nextDomid
    rcases hcases i hi with hold | ⟨d, hd, rfl, _⟩
    · have hlt := h.used i hold
      omega
    · have hlt := hseen d hd
      omega
  · rcases hcases d.id hi with hold | ⟨d', hd', hid, hacc⟩
    · rcases hrun d hd with hd | hnew
      · exact h.accepted d hd hold
      · have hlt := h.used d.id hold
        omega
    · rcases hrun d hd with hd | hnew
      · have hsame := eq_of_key_eq (·.id) hinv.ordered.ids hd' hd hid
        exact hsame ▸ hacc
      · have hlt := hseen d' hd'
        omega

/-! ### At exit -/

/-- The loop of `BalloonBackVmMem` ends the collection for a listed domain if libvirt accepts. -/
theorem foldl_disable (vms : List VirtualMachineInfo) (ok : Int → Bool) (periods : Periods)
    {i : Int} (hok : ok i = true)
    (hi : i ∈ vms.map (·.domid) ∨ periods i = some disableStatsUpdatePeriod) :
    vms.foldl (fun p v ↦ setVmMemoryStatsPeriod p v.domid false (ok v.domid)) periods i =
      some disableStatsUpdatePeriod := by
  induction vms generalizing periods with
  | nil => exact hi.resolve_left List.not_mem_nil
  | cons v vms ih =>
    rw [List.foldl_cons]
    apply ih
    rw [setVmMemoryStatsPeriod_apply]
    by_cases hv : i = v.domid
    · subst hv
      right
      rw [if_pos ⟨rfl, hok⟩]
      rfl
    · rw [if_neg fun hboth ↦ hv hboth.1]
      exact hi.imp_left fun hin ↦ (List.mem_cons.mp hin).resolve_left hv

/-- In every interleaving in which nothing is missed, a daemon that exits while its event thread
is quiet leaves no running domain with its statistics collected, except where libvirt refuses to
end it. -/
theorem no_collection_left (L : Libvirtd) (cfg : BalloonConfig) (enable : Bool)
    (acts : List (WorldAct × Bool))
    (h : StepsMeet (monitorStep L cfg enable) (fun m a ↦ NothingMissed L m.world a.1)
      Monitored.init acts)
    (hquiet : Quiet (run (monitorStep L cfg enable) Monitored.init acts).world.events)
    (ok : Int → Bool) :
    ∀ d ∈ (run (monitorStep L cfg enable) Monitored.init acts).world.events.running,
      periodsAtExit enable
        (run (monitorStep L cfg enable) Monitored.init acts).world.events.list.vms ok
        (run (monitorStep L cfg enable) Monitored.init acts).periods d.id =
          some enableStatsUpdatePeriod → ok d.id = false := by
  have hinv := h.invariant (I := fun m ↦ Reachable (worldStep L cfg) World.init m.world ∧
    EventInv L m.world.events ∧ PeriodInv L m ∧ (enable = false → ∀ i, m.periods i = none))
    ⟨Reachable.init _ _, eventInv_init L,
      ⟨fun _ hi ↦ absurd rfl hi, fun _ _ hi ↦ absurd rfl hi⟩, fun _ _ ↦ rfl⟩ ?_
  · generalize run (monitorStep L cfg enable) Monitored.init acts = m at hquiet hinv ⊢
    obtain ⟨_, hevents, hperiods, hoff⟩ := hinv
    intro d hd hleft
    cases enable with
    | false =>
      have hnone := hoff rfl d.id
      exact absurd (hnone.symm.trans hleft) (by simp)
    | true =>
      apply Classical.byContradiction
      intro hok
      rw [Bool.not_eq_false] at hok
      -- The collection was started while the daemon ran, so the domain is listed by now.
      have hset : m.periods d.id ≠ none := by
        rcases foldl_setPeriod m.world.events.list.vms (·.domid) false (fun v ↦ ok v.domid)
          m.periods d.id with heq | ⟨_, hend⟩
        · rw [heq.symm.trans hleft]
          exact Option.some_ne_none _
        · exact absurd (hend.symm.trans hleft) (by decide)
      have hlisted : d.id ∈ m.world.events.list.vms.map (·.domid) := by
        have hin := (hevents.listAgrees hquiet).2.1 d hd (hperiods.accepted d hd hset)
        obtain ⟨v, hv, rfl⟩ := List.mem_map.mp hin
        exact List.mem_map_of_mem hv
      have hend := foldl_disable m.world.events.list.vms ok m.periods hok (.inl hlisted)
      exact absurd (hend.symm.trans hleft) (by decide)
  · intro m a hok ⟨hr, hevents, hperiods, hoff⟩
    refine ⟨hr.step a.1, eventInv_worldStep hr hevents hok, hperiods.step hr hevents a, ?_⟩
    intro henable i
    simp only [monitorStep, henable, Bool.false_eq_true, if_false]
    exact hoff henable i

/-- Two domains are listed, one of them is lost with the connection and restarted, and the other
is listed again by the rebuild. -/
def monitoredRun : List (WorldAct × Bool) :=
  [(.event (.start "a"), true), (.event (.start "b"), true),
    (.event .domainEventsRegister, true), (.event .freeAllVM, true),
    (.event .connectNumOfDomains, true), (.event (.connectListDomains [0, 1]), true),
    (.event .findAddVMToList, true), (.event .findAddVMToList, false),
    (.event .findAddVMToList, true), (.event .disconnect, true), (.event (.stop 0), true),
    (.event (.start "a"), true), (.event .lostConnection, true),
    (.event .domainEventsRegister, true), (.event .freeAllVM, true),
    (.event .connectNumOfDomains, true), (.event (.connectListDomains [1, 2]), true),
    (.event .findAddVMToList, true), (.event .findAddVMToList, true),
    (.event .findAddVMToList, true)]

/-- Both were collected at the end, and only the refused one still is after the exit. -/
theorem no_collection_left_refused :
    let m := run (monitorStep plainLibvirtd .default true) Monitored.init monitoredRun
    m.periods 1 = some enableStatsUpdatePeriod ∧ m.periods 2 = some enableStatsUpdatePeriod ∧
      ∀ d ∈ m.world.events.running,
        periodsAtExit true m.world.events.list.vms (· ≠ 2) m.periods d.id =
          some enableStatsUpdatePeriod → decide (d.id ≠ 2) = false :=
  ⟨by decide, by decide, no_collection_left plainLibvirtd .default true monitoredRun
    (by decide) (by decide) _⟩

end Memlink
