import Memlink.Daemon.World

/-!
# Recovery by reconnecting

An incomplete reply of `virConnectListDomains` or a failure in the event thread may leave the list
wrong, and nothing in the loop of `DomainEventProcessThread` (`libvirt_helper.c:506–513`) notices.
The next loss of the connection makes the thread start over (`libvirt_helper.c:483–520`), and from
then on nothing depends on what was missed before.
-/

namespace Memlink

open Transition Mirror

/-! ### What holds whatever is missed -/

/-- libvirt's ids and names stay distinct. -/
theorem eventStep_distinct {L : Libvirtd} {s : EventState} (h : Distinct s.seen s.running)
    (a : EventAct) : Distinct (eventStep L s a).seen (eventStep L s a).running := by
  have hthread : (∀ name, a ≠ .start name) → (∀ domid, a ≠ .stop domid) →
      Distinct (eventStep L s a).seen (eventStep L s a).running := by
    intro hstart hstop
    obtain ⟨hrun, hnext⟩ := eventStep_running L s hstart hstop
    unfold EventState.seen
    rw [hrun, hnext]
    exact h
  cases a with
  | start name =>
    simp only [eventStep]
    split
    · exact h
    · next hname =>
      let x : Domain := ⟨s.nextDomid, name⟩
      have hnew : ¬ s.seen x.id := Int.lt_irrefl _
      have hseen : ∀ i, s.seen i → i < ((s.nextDomid + 1 : Nat) : Int) := by
        intro i hi
        unfold EventState.seen at hi
        omega
      have hx : x.id < ((s.nextDomid + 1 : Nat) : Int) := by
        change (s.nextDomid : Int) < _
        omega
      exact h.appear hnew hseen hx hname
  | stop domid =>
    simp only [eventStep]
    split
    · next d _ => exact h.vanish d
    · exact h
  | _ => exact hthread (fun _ ha ↦ by cases ha) (fun _ ha ↦ by cases ha)

/-- They do in every interleaving. -/
theorem distinct_of_world {L : Libvirtd} {cfg : BalloonConfig} {w : World}
    (h : Reachable (worldStep L cfg) World.init w) : Distinct w.events.seen w.events.running := by
  have hinit : Distinct World.init.events.seen World.init.events.running :=
    ⟨List.nodup_nil, List.nodup_nil, fun _ hx ↦ absurd hx List.not_mem_nil⟩
  refine h.invariant (I := fun w ↦ Distinct w.events.seen w.events.running) hinit
    fun w a hw ↦ ?_
  cases a with
  | event a => exact eventStep_distinct hw a
  | fail f =>
    obtain ⟨_, hrun, hnext⟩ := failStep_kept w.events f
    change Distinct (failStep w.events f).seen (failStep w.events f).running
    unfold EventState.seen
    rw [hrun, hnext]
    exact hw
  | enter a ha => exact hw
  | balloonBackVmMem lib => exact hw

/-- The invariant of the event thread holds again when the connection is lost. -/
theorem eventInv_disconnected {L : Libvirtd} {cfg : BalloonConfig} {w : World}
    (h : Reachable (worldStep L cfg) World.init w) :
    EventInv L (worldStep L cfg w (.event .disconnect)).events := by
  have hs := world_reachable h
  refine ⟨(wf_of_reachable hs).list, unshared_of_reachable hs, (distinct_of_world h).ordered_nil,
    fun _ ↦ rfl, fun hc ↦ ?_⟩
  exact absurd hc Bool.false_ne_true

/-! ### The thread finds its way back -/

/-- A step of the event thread itself. -/
def EventAct.own : EventAct → Bool
  | .start _ => false
  | .stop _ => false
  | .disconnect => false
  | _ => true

/-- The thread's own steps, with complete replies, lead from one state to another. -/
def Leads (L : Libvirtd) (s s' : EventState) : Prop :=
  ∃ acts : List EventAct, (∀ a ∈ acts, a.own = true) ∧
    StepsMeet (eventStep L) (ListsComplete L) s acts ∧ run (eventStep L) s acts = s'

section Leads

variable {L : Libvirtd} {s s' s'' : EventState}

/-- A state leads to itself. -/
theorem Leads.refl (L : Libvirtd) (s : EventState) : Leads L s s :=
  ⟨[], fun _ ha ↦ absurd ha List.not_mem_nil, trivial, rfl⟩

/-- A step comes first. -/
theorem Leads.step {a : EventAct} (ha : a.own = true) (hok : ListsComplete L s a)
    (h : Leads L (eventStep L s a) s') : Leads L s s' := by
  obtain ⟨acts, hown, hmeet, hrun⟩ := h
  refine ⟨a :: acts, fun b hb ↦ ?_, ⟨hok, hmeet⟩, hrun⟩
  rcases List.mem_cons.mp hb with rfl | hb
  · exact ha
  · exact hown b hb

/-- Ways compose. -/
theorem Leads.trans (h : Leads L s s') (h' : Leads L s' s'') : Leads L s s'' := by
  obtain ⟨acts, hown, hmeet, rfl⟩ := h
  obtain ⟨acts', hown', hmeet', rfl⟩ := h'
  refine ⟨acts ++ acts', fun a ha ↦ ?_, (stepsMeet_append _ _ _ _ _).mpr ⟨hmeet, hmeet'⟩,
    run_append _ _ _ _⟩
  rcases List.mem_append.mp ha with ha | ha
  · exact hown a ha
  · exact hown' a ha

/-- The ids of a reply are added one after the other. -/
theorem leads_added {domids : List Int} (hp : s.phase = .adding domids) :
    ∃ l, Leads L s { s with list := l, phase := .loop } := by
  induction domids generalizing s with
  | nil =>
    refine ⟨s.list, Leads.step (a := .findAddVMToList) rfl trivial ?_⟩
    simp only [eventStep, hp]
    exact Leads.refl L _
  | cons domid domids ih =>
    obtain ⟨l, hl⟩ := ih (s := eventStep L s .findAddVMToList) (by simp only [eventStep, hp])
    refine ⟨l, Leads.step (a := .findAddVMToList) rfl trivial ?_⟩
    simp only [eventStep, hp] at hl ⊢
    exact hl

/-- Without a connection the calls fail, up to the loop and out of it. -/
theorem leads_top (hc : s.connected = false) :
    ∃ l, Leads L s { s with list := l, phase := .top } := by
  -- From the loop it is one step; the other phases come to the loop.
  have hloop : ∀ l, Leads L { s with list := l, phase := .loop }
      { s with list := l, phase := .top } := by
    intro l
    refine Leads.step (a := .lostConnection) rfl trivial ?_
    simp only [eventStep, hc, and_self, if_true]
    exact Leads.refl L _
  have hcount : ∀ l, Leads L { s with list := l, phase := .freed }
      { s with list := l, phase := .loop } := by
    intro l
    refine Leads.step (a := .connectNumOfDomains) rfl trivial ?_
    simp only [eventStep, hc, Bool.false_eq_true, false_and, if_true, if_false]
    exact Leads.refl L _
  cases hp : s.phase with
  | top =>
    have hs : s = { s with list := s.list, phase := .top } := by rw [← hp]
    exact ⟨s.list, hs ▸ Leads.refl L s⟩
  | registered =>
    refine ⟨freeAllVM s.list, Leads.step (a := .freeAllVM) rfl trivial ?_⟩
    simp only [eventStep, hp, if_true]
    exact (hcount _).trans (hloop _)
  | freed =>
    have hs : s = { s with list := s.list, phase := .freed } := by rw [← hp]
    refine ⟨s.list, ?_⟩
    have hway := (hcount s.list).trans (hloop s.list)
    rwa [← hs] at hway
  | counted domNum =>
    have hfails : eventStep L s (.connectListDomains []) = { s with phase := .loop } := by
      simp only [eventStep, hp]
      rw [if_neg (by rw [hc]; exact Bool.false_ne_true)]
    refine ⟨s.list, Leads.step (a := .connectListDomains []) rfl ?_ ?_⟩
    · intro _ hcon
      exact absurd (hc.symm.trans hcon) Bool.false_ne_true
    · rw [hfails]
      exact hloop s.list
  | adding domids =>
    obtain ⟨l, hl⟩ := leads_added (L := L) hp
    exact ⟨l, hl.trans (hloop l)⟩
  | loop =>
    have hs : s = { s with list := s.list, phase := .loop } := by rw [← hp]
    refine ⟨s.list, ?_⟩
    have hway := hloop s.list
    rwa [← hs] at hway

/-- A rebuild that nothing disturbs ends quietly. -/
theorem leads_quiet (hp : s.phase = .top) (hids : (s.running.map (·.id)).Nodup) :
    ∃ s', Leads L s s' ∧ Quiet s' := by
  let r : EventState :=
    { s with connected := true, queue := [], list := freeAllVM s.list, phase := .freed }
  have hstart : ∀ t, Leads L r t → Leads L s t := by
    intro t ht
    refine Leads.step (a := .domainEventsRegister) rfl trivial ?_
    refine Leads.step (a := .freeAllVM) rfl trivial ?_
    simp only [eventStep, hp, if_true]
    exact ht
  by_cases hnone : s.running = []
  · have hcount : eventStep L r .connectNumOfDomains = { r with phase := .loop } := by
      simp [r, eventStep, hnone]
    refine ⟨{ r with phase := .loop }, hstart _ ?_, ⟨rfl, rfl, rfl⟩⟩
    refine Leads.step (a := .connectNumOfDomains) rfl trivial ?_
    rw [hcount]
    exact Leads.refl L _
  · let c : EventState := { r with phase := .counted s.running.length }
    have hcount : eventStep L r .connectNumOfDomains = c := by
      simp [c, r, eventStep, hnone]
    have hvalid : ValidReply c s.running.length (s.running.map (·.id)) :=
      ⟨hids, fun _ hi ↦ hi, by simp [c, r]⟩
    have hlist : eventStep L c (.connectListDomains (s.running.map (·.id))) =
        { r with phase := .adding (s.running.map (·.id)) } := by
      simp only [c, eventStep]
      rw [if_pos rfl]
      exact if_pos hvalid
    obtain ⟨l, hl⟩ := leads_added (L := L)
      (s := { r with phase := .adding (s.running.map (·.id)) }) rfl
    refine ⟨{ r with list := l, phase := .loop }, hstart _ ?_, ⟨rfl, rfl, rfl⟩⟩
    refine Leads.step (a := .connectNumOfDomains) rfl trivial ?_
    rw [hcount]
    refine Leads.step (a := .connectListDomains (s.running.map (·.id))) rfl ?_ ?_
    · intro _ _ d hd _ _
      exact List.mem_map_of_mem hd
    · rw [hlist]
      exact hl

end Leads

/-! ### Recovery -/

/-- The state in which the connection is lost after some run. -/
def lostAfter (L : Libvirtd) (cfg : BalloonConfig) (before : List WorldAct) : World :=
  run (worldStep L cfg) World.init (before ++ [.event .disconnect])

/-- Steps of the event thread are steps of the whole. -/
theorem run_events (L : Libvirtd) (cfg : BalloonConfig) (w : World) (acts : List EventAct) :
    run (worldStep L cfg) w (acts.map .event) =
      { w with events := run (eventStep L) w.events acts } := by
  induction acts generalizing w with
  | nil => rfl
  | cons a acts ih => exact ih _

/-- They miss nothing if the replies are complete. -/
theorem stepsMeet_events {L : Libvirtd} (cfg : BalloonConfig) {w : World} {acts : List EventAct}
    (h : StepsMeet (eventStep L) (ListsComplete L) w.events acts) :
    StepsMeet (worldStep L cfg) (NothingMissed L) w (acts.map .event) := by
  induction acts generalizing w with
  | nil => trivial
  | cons a acts ih => exact ⟨h.1, ih h.2⟩

/-- Whatever was missed before the connection was lost, in every interleaving after it in which
nothing is missed the list agrees with libvirt whenever the event thread is quiet; and the thread's
own steps are enough to make it quiet. -/
theorem recovers_by_reconnecting (L : Libvirtd) (cfg : BalloonConfig) (before : List WorldAct) :
    (∀ after, StepsMeet (worldStep L cfg) (NothingMissed L) (lostAfter L cfg before) after →
      Quiet (run (worldStep L cfg) (lostAfter L cfg before) after).events →
        ListAgrees L (run (worldStep L cfg) (lostAfter L cfg before) after).events) ∧
    ∃ after : List EventAct, (∀ a ∈ after, a.own = true) ∧
      StepsMeet (worldStep L cfg) (NothingMissed L) (lostAfter L cfg before)
        (after.map .event) ∧
      Quiet (run (worldStep L cfg) (lostAfter L cfg before) (after.map .event)).events := by
  have hlost : lostAfter L cfg before =
      worldStep L cfg (run (worldStep L cfg) World.init before) (.event .disconnect) :=
    run_concat _ _ _ _
  have hreach : Reachable (worldStep L cfg) World.init (lostAfter L cfg before) := ⟨_, rfl⟩
  have hinv : EventInv L (lostAfter L cfg before).events := by
    rw [hlost]
    exact eventInv_disconnected ⟨before, rfl⟩
  refine ⟨fun after h hquiet ↦ ?_, ?_⟩
  · exact (hinv.worldRun hreach h).listAgrees hquiet
  · have hoff : (lostAfter L cfg before).events.connected = false := by
      rw [hlost]
      rfl
    obtain ⟨l, hl⟩ := leads_top (L := L) hoff
    obtain ⟨s', hs', hquiet⟩ := leads_quiet (L := L)
      (s := { (lostAfter L cfg before).events with list := l, phase := .top }) rfl
      hinv.ordered.ids
    obtain ⟨after, hown, hmeet, hrun⟩ := hl.trans hs'
    refine ⟨after, hown, stepsMeet_events cfg hmeet, ?_⟩
    rw [run_events, hrun]
    exact hquiet

end Memlink
