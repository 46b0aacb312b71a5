import Memlink.Daemon.History

/-!
# The order of the commands for one record

What `BalloonMainLoop` sends for a record (`memlink_core.c:196–257`) follows a small protocol:
memory that was taken is given back in two steps before more is taken, and a give-back that
libvirt refused is repeated. The protocol is an automaton over the call sites and libvirt's
answers; the flags of the record tell which phase it is in.
-/

namespace Memlink

open Transition

/-- How far the commands sent for a record have come: nothing to give back, memory taken, step 1
refused, step 1 accepted. -/
inductive Phase where
  | idle
  | down
  | retry
  | back
  deriving DecidableEq, Repr

/-- The phase after a command from a call site and libvirt's answer; `none` if the command is out
of order. -/
def Phase.next : Phase → Site → Bool → Option Phase
  | .idle, .doBallooning, ok => some (if ok then .down else .idle)
  | .back, .doBallooning, ok => some (if ok then .down else .idle)
  | _, .step1, ok => some (if ok then .back else .retry)
  | .back, .step2, _ => some .back
  | _, _, _ => none

/-- The phase a log leads to, if its commands came in order. -/
def phaseOf : Log → Option Phase
  | [] => some .idle
  | c :: older => (phaseOf older).bind fun g ↦ g.next c.site c.accepted

/-- The commands came in order. -/
def InOrder (log : Log) : Prop := ∃ g, phaseOf log = some g

/-- What the flags of a record say in each phase. -/
def Fits (v : VirtualMachineInfo) : Phase → Prop
  | .idle => v.ballooningDown = false ∧ (v.ballooning = true → v.incompleteBalloon = true)
  | .down => v.ballooning = true ∧ v.ballooningDown = true ∧ v.incompleteBalloon = false
  | .retry => v.ballooning = true ∧ v.incompleteBalloon = true
  | .back => v.ballooningDown = false

/-! ### One turn -/

/-- The phase depends on the three flags only. -/
theorem Fits.of_flags {v w : VirtualMachineInfo} {g : Phase} (h : Fits v g)
    (hb : w.ballooning = v.ballooning) (hd : w.ballooningDown = v.ballooningDown)
    (hi : w.incompleteBalloon = v.incompleteBalloon) : Fits w g := by
  cases g with
  | idle => exact ⟨hd.trans h.1, fun hw ↦ hi.trans (h.2 (hb.symm.trans hw))⟩
  | down => exact ⟨hb.trans h.1, hd.trans h.2.1, hi.trans h.2.2⟩
  | retry => exact ⟨hb.trans h.1, hi.trans h.2⟩
  | back => exact hd.trans h

/-- The passes before the main loop leave a record in its phase. -/
theorem Fits.prepared {v : VirtualMachineInfo} {g : Phase} (h : Fits v g) :
    Fits (prepared v) g := by
  have hdown := prepared_ballooningDown v
  cases g with
  | idle =>
    refine ⟨hdown.trans h.1, fun hb ↦ ?_⟩
    rw [(prepared_flags v).1] at hb
    rw [(prepared_flags v).2.2]
    rcases flagIncomplete_ballooning hb with hv | hinc
    · rw [flagIncomplete_eq_self hv]
      exact h.2 hv
    · exact hinc
  | down => exact (prepared_eq_self h.1).symm ▸ h
  | retry => exact (prepared_eq_self h.1).symm ▸ h
  | back => exact hdown.trans h

private theorem Fits.of_idle_record {v : VirtualMachineInfo} {g : Phase} (h : Fits v g)
    (hb : v.ballooning = false) : g = .idle ∨ g = .back := by
  cases g with
  | idle => exact .inl rfl
  | down => exact absurd (hb.symm.trans h.1) Bool.false_ne_true
  | retry => exact absurd (hb.symm.trans h.1) Bool.false_ne_true
  | back => exact .inr rfl

private theorem Fits.of_back_record {v : VirtualMachineInfo} {g : Phase} (h : Fits v g)
    (hb : v.ballooning = true) (hi : v.incompleteBalloon = false)
    (hd : v.ballooningDown = false) : g = .back := by
  cases g with
  | idle => exact absurd (hi.symm.trans (h.2 hb)) Bool.false_ne_true
  | down => exact absurd (hd.symm.trans h.2.1) Bool.false_ne_true
  | retry => exact absurd (hi.symm.trans h.2) Bool.false_ne_true
  | back => rfl

private theorem Phase.next_step1 (g : Phase) (ok : Bool) :
    g.next .step1 ok = some (if ok then .back else .retry) := by
  cases g <;> rfl

private theorem fits_stepOneAfter {v : VirtualMachineInfo} (hb : v.ballooning = true) (ok : Bool) :
    Fits (stepOneAfter v ok) (if ok then .back else .retry) := by
  cases ok with
  | true => rfl
  | false => exact ⟨hb, rfl⟩

private theorem fits_downAfter (cfg : BalloonConfig) {v : VirtualMachineInfo}
    (hb : v.ballooning = false) (hd : v.ballooningDown = false)
    (hi : v.incompleteBalloon = false) (ok : Bool) :
    Fits (downAfter cfg v ok) (if ok then .down else .idle) := by
  cases ok with
  | true => exact ⟨rfl, rfl, hi⟩
  | false => exact ⟨hd, fun hw ↦ absurd (hb.symm.trans hw) Bool.false_ne_true⟩

/-- Whatever a turn does is in order and leaves the record in the phase reached. -/
theorem Fits.outcome {cfg : BalloonConfig} {v v' : VirtualMachineInfo} {ok : Bool}
    {cmds sent old : Log} {g : Phase} (h : Fits v g) (hs : phaseOf sent = some g)
    (hinv : BalloonInv v old) (ho : Outcome cfg v ok v' cmds) :
    ∃ g', phaseOf (cmds ++ sent) = some g' ∧ Fits v' g' := by
  have hstep1 : ∀ w t, phaseOf ([⟨w, .step1, t, ok⟩] ++ sent) =
      some (if ok then .back else .retry) := by
    intro w t
    simp only [List.singleton_append, phaseOf, hs, Option.bind_some, Phase.next_step1]
  cases ho with
  | skipped => exact ⟨g, hs, h⟩
  | counted => exact ⟨g, hs, h.of_flags rfl rfl rfl⟩
  | untargeted => exact ⟨g, hs, h.of_flags rfl rfl rfl⟩
  | down hev =>
    obtain ⟨hd, hi⟩ := hinv.idle hev.2.1
    refine ⟨_, ?_, fits_downAfter cfg hev.2.1 hd hi ok⟩
    simp only [List.singleton_append, phaseOf, hs, Option.bind_some]
    rcases h.of_idle_record hev.2.1 with rfl | rfl
    · rfl
    · rfl
  | retried hck => exact ⟨_, hstep1 _ _, fits_stepOneAfter hck.2.1 ok⟩
  | reached hck => exact ⟨_, hstep1 _ _, fits_stepOneAfter hck.2.1 ok⟩
  | stopped hck =>
    have hb : (slowed v).ballooning = true := hck.2.1
    exact ⟨_, hstep1 _ _, fits_stepOneAfter hb ok⟩
  | inflating => exact ⟨g, hs, h.of_flags rfl rfl rfl⟩
  | finished hck hi hd =>
    obtain rfl := h.of_back_record hck.2.1 hi hd
    exact ⟨.back, hs, hd⟩
  | left hck hi hd =>
    obtain rfl := h.of_back_record hck.2.1 hi hd
    refine ⟨.back, ?_, h⟩
    simp only [List.singleton_append, phaseOf, hs, Option.bind_some, Phase.next]
  | deflating => exact ⟨g, hs, h⟩

/-! ### Whole runs -/

/-- The commands sent to an address in a run are those seen in the turns of its record. -/
theorem recordHistory_sent (cfg : BalloonConfig) (addr : Nat) (acts : List Section) :
    recordHistory cfg [] (fun _ sent ↦ sent) addr State.init acts =
      sentTo addr (run (step cfg) State.init acts).log := by
  have hall : StepsMeet (step cfg) (fun _ _ ↦ True) State.init acts :=
    stepsMeet_of_forall (fun _ _ ↦ trivial) _ _
  refine (hall.history_invariant (recordEvents cfg [] (fun _ sent ↦ sent) addr)
    (I := fun s seen ↦ s.Wf ∧ seen = sentTo addr s.log) ⟨State.wf_init, rfl⟩ ?_).2
  rintro s _ a _ ⟨hwf, rfl⟩
  refine ⟨hwf.step cfg a, ?_⟩
  by_cases hin : addr ∈ s.list.vms.map (·.addr)
  · obtain ⟨v, hv, rfl⟩ := List.mem_map.mp hin
    cases a with
    | balloonCycle lib => rw [recordEvents_cycle hwf hv, sentTo_cycle hwf]
    | _ =>
      rw [recordEvents_other hwf hv (fun _ hne ↦ by cases hne)]
      rfl
  · rw [recordEvents_unlisted hin, ite_self, List.nil_append]
    cases a with
    | balloonCycle lib =>
      obtain ⟨sent, he, hsends⟩ := cycle_sends hwf cfg lib
      rw [he, sentTo_append, sentTo_eq_nil addr sent, List.nil_append]
      intro c hc ha
      obtain ⟨v, hv, ok, hcv⟩ := hsends.emitter c hc
      have hva := ((turn_commands cfg v ok).2 c hcv).1
      exact hin (List.mem_map.mpr ⟨v, hv, hva.symm.trans ha⟩)
    | _ => rfl

/-- The commands are in order, and the record is in the phase reached. -/
theorem phase_law (cfg : BalloonConfig) : RecordLaw cfg [] (fun _ sent ↦ sent)
    (fun v sent ↦ ∃ g, phaseOf sent = some g ∧ Fits v g) where
  new v hnew := by
    obtain ⟨addr, domid, name, win, r, rfl⟩ := hnew
    exact ⟨.idle, rfl, rfl, fun hb ↦ absurd hb Bool.false_ne_true⟩
  report v h r := by
    rintro ⟨g, hs, hf⟩
    exact ⟨g, hs, hf.of_flags rfl rfl rfl⟩
  setRef v h n := by
    rintro ⟨g, hs, hf⟩
    exact ⟨g, hs, hf.of_flags rfl rfl rfl⟩
  turn v h ok sent hinv := by
    rintro ⟨g, hs, hf⟩
    exact hf.prepared.outcome hs (balloonInv_prepared hinv) (turn_outcome cfg v ok)

/-- The law in every run, for the log itself. -/
theorem phase_of_run (cfg : BalloonConfig) (addr : Nat) (acts : List Section) :
    ∃ g, phaseOf (sentTo addr (run (step cfg) State.init acts).log) = some g ∧
      ∀ v ∈ (run (step cfg) State.init acts).list.vms, v.addr = addr → Fits v g := by
  have hnil : InOrder [] := ⟨.idle, rfl⟩
  obtain ⟨⟨g, hg⟩, hlisted⟩ := (phase_law cfg).holds hnil (fun _ _ ⟨g, hs, _⟩ ↦ ⟨g, hs⟩) addr acts
  rw [recordHistory_sent] at hg hlisted
  refine ⟨g, hg, fun v hv ha ↦ ?_⟩
  obtain ⟨g', hg', hf⟩ := hlisted v hv ha
  exact Option.some.inj (hg.symm.trans hg') ▸ hf

private theorem InOrder.suffix {newer older : Log} (h : InOrder (newer ++ older)) :
    InOrder older := by
  induction newer with
  | nil => exact h
  | cons c newer ih =>
    obtain ⟨g, hg⟩ := h
    obtain ⟨g₀, h₀, _⟩ := Option.bind_eq_some_iff.mp hg
    exact ih ⟨g₀, h₀⟩

private theorem taken_until_back {d : Command} {mid older : Log} {g : Phase}
    (hd : d.site = .doBallooning) (hacc : d.accepted = true)
    (hmid : ∀ c ∈ mid, ¬ (c.site = .step1 ∧ c.accepted = true))
    (h : phaseOf (mid ++ d :: older) = some g) : g = .down ∨ g = .retry := by
  induction mid generalizing g with
  | nil =>
    obtain ⟨g₀, _, hnext⟩ := Option.bind_eq_some_iff.mp h
    rw [hd, hacc] at hnext
    cases g₀ <;> cases hnext <;> exact .inl rfl
  | cons c mid ih =>
    obtain ⟨g₀, h₀, hnext⟩ := Option.bind_eq_some_iff.mp h
    have hc := hmid c List.mem_cons_self
    have hg₀ := ih (fun c' hc' ↦ hmid c' (List.mem_cons_of_mem c hc')) h₀
    -- Only step 1 is in order here, and it was refused.
    cases hsite : c.site with
    | step1 =>
      have hrefused : c.accepted = false := by simpa [hsite] using hc
      rw [hsite, hrefused, Phase.next_step1] at hnext
      exact .inr (Option.some.inj hnext).symm
    | _ =>
      rw [hsite] at hnext
      rcases hg₀ with rfl | rfl <;> cases hnext

private theorem back_between {newer mid older : Log} {d d' : Command}
    (h : InOrder (newer ++ d' :: (mid ++ d :: older)))
    (hd : d.site = .doBallooning) (hacc : d.accepted = true) (hd' : d'.site = .doBallooning) :
    ∃ c ∈ mid, c.site = .step1 ∧ c.accepted = true := by
  obtain ⟨g', hg'⟩ := h.suffix
  obtain ⟨g₀, h₀, hnext⟩ := Option.bind_eq_some_iff.mp hg'
  apply Classical.byContradiction
  intro hnone
  have htaken := taken_until_back hd hacc (fun c hc hback ↦ hnone ⟨c, hc, hback⟩) h₀
  rw [hd'] at hnext
  rcases htaken with rfl | rfl <;> cases hnext

/-- In every run the commands sent for a record come in the order of the protocol, and its flags,
while it is listed, are those of the phase reached. In particular, between a reclaim that libvirt
accepted and the next one for the same record, libvirt accepted a command that gives the memory
back. -/
theorem commands_in_order (cfg : BalloonConfig) (addr : Nat) (acts : List Section) :
    (∃ g, phaseOf (sentTo addr (run (step cfg) State.init acts).log) = some g ∧
      ∀ v ∈ (run (step cfg) State.init acts).list.vms, v.addr = addr → Fits v g) ∧
    ∀ newer d' mid d older, sentTo addr (run (step cfg) State.init acts).log =
        newer ++ d' :: (mid ++ d :: older) →
      d.site = .doBallooning → d.accepted = true → d'.site = .doBallooning →
        ∃ c ∈ mid, c.site = .step1 ∧ c.accepted = true := by
  obtain ⟨g, hg, hfits⟩ := phase_of_run cfg addr acts
  refine ⟨⟨g, hg, hfits⟩, fun newer d' mid d older hlog hd hacc hd' ↦ ?_⟩
  rw [hlog] at hg
  exact back_between ⟨g, hg⟩ hd hacc hd'

end Memlink
