import Memlink.Daemon.Lifecycle

/-!
# What passes between the threads

The event thread tells the main thread of a rebuilt list through `g_libvirtChange`
(`libvirt_helper.c:497–502`, `main.c:140–142`) and of the first one through a semaphore on the
main thread's stack (`memlink_core.c:47–56`); the main thread tells the others to stop through
`g_stopMemlinkd`.
-/

namespace Memlink

open Transition

private theorem countP_of_other {f : Note → Bool} {n : List Note} (hn : ∀ x ∈ n, f x = false)
    (notes : List Note) : (n ++ notes).countP f = notes.countP f := by
  rw [List.countP_append, List.countP_eq_zero.mpr (by simpa using hn), Nat.zero_add]

/-! ### No rebuild goes unnoticed -/

/-- An `UpdateAllVmInfo` of the main thread. -/
def Note.isUpdate : Note → Bool
  | .ran (.updateAllVmInfo _) => true
  | _ => false

/-- A notice of the event thread that it has rebuilt the list. -/
def Note.isNotice : Note → Bool
  | .notified => true
  | _ => false

/-- The newest of notices and updates is a notice. -/
def updateOwed : List Note → Bool
  | [] => false
  | n :: notes => n.isNotice || !n.isUpdate && updateOwed notes

/-- A notice that was not acted on is in the flag or in the main thread's hands, and the main
thread acts at most once on each. -/
structure ChangeInv (s : Process) : Prop where
  owed : updateOwed s.notes = true → s.change = true ∨ s.main = .update
  budget : s.notes.countP Note.isUpdate + (decide (s.main = .update)).toNat + s.change.toNat ≤
    s.notes.countP Note.isNotice

section ChangeInv

variable {b : Boot} {s s' : Process}

private theorem ChangeInv.of_frame (h : ChangeInv s) {n : List Note}
    (hn : s'.notes = n ++ s.notes) (hother : ∀ x ∈ n, x.isNotice = false ∧ x.isUpdate = false)
    (hchange : s'.change = s.change) (hmain : s'.main = .update ↔ s.main = .update) :
    ChangeInv s' := by
  have howed : updateOwed (n ++ s.notes) = updateOwed s.notes := by
    clear hn
    induction n with
    | nil => rfl
    | cons x n ih =>
      obtain ⟨hx, hx'⟩ := hother x List.mem_cons_self
      rw [List.cons_append, updateOwed, hx, hx', ih fun y hy ↦ hother y (List.mem_cons_of_mem x hy)]
      rfl
  refine ⟨?_, ?_⟩
  · rw [hn, howed, hchange, hmain]
    exact h.owed
  · rw [hn, hchange, countP_of_other fun x hx ↦ (hother x hx).1,
      countP_of_other fun x hx ↦ (hother x hx).2]
    simpa only [hmain] using h.budget

private theorem MainGoto.not_update {stop : Int} {p q : MainPhase} (h : MainGoto b stop p q) :
    p ≠ .update ∧ q ≠ .update := by
  cases h <;> exact ⟨nofun, nofun⟩

private theorem ChangeInv.elsewhere (h : ChangeInv s) {n : List Note}
    (hn : s'.notes = n ++ s.notes) (hother : ∀ x ∈ n, x.isNotice = false ∧ x.isUpdate = false)
    (hchange : s'.change = s.change) (hmain : s.main ≠ .update) (hmain' : s'.main ≠ .update) :
    ChangeInv s' :=
  h.of_frame hn hother hchange (iff_of_false hmain' hmain)

private theorem changeInv_move {a : ThreadAct} (hm : ThreadMoves b s a s') (hs : StartInv b s)
    (h : ChangeInv s) : ChangeInv s' := by
  have hnone : ∀ x ∈ ([] : List Note), x.isNotice = false ∧ x.isUpdate = false := nofun
  cases hm with
  | goto p q hp hgo =>
    exact h.elsewhere (n := []) rfl hnone rfl (hp ▸ hgo.not_update.1) hgo.not_update.2
  | exchange hp =>
    have hbudget := h.budget
    rw [hp] at hbudget
    refine ⟨fun howed ↦ .inr ?_, ?_⟩
    · rw [(h.owed howed).resolve_right (by rw [hp]; exact nofun)]
      rfl
    · cases hchange : s.change with
      | true => simpa [hchange] using hbudget
      | false => simpa [hchange] using hbudget
  | update query hp =>
    have hbudget : s.notes.countP Note.isUpdate + 1 + s.change.toNat ≤
        s.notes.countP Note.isNotice := by simpa [hp] using h.budget
    refine ⟨nofun, ?_⟩
    change (Note.ran (.updateAllVmInfo query) :: s.notes).countP Note.isUpdate + 0 +
      s.change.toNat ≤ (Note.ran (.updateAllVmInfo query) :: s.notes).countP Note.isNotice
    rw [List.countP_cons_of_pos (p := Note.isUpdate) rfl,
      List.countP_cons_of_neg (p := Note.isNotice)
        (a := .ran (.updateAllVmInfo query)) Bool.false_ne_true]
    exact hbudget
  | notify hp =>
    have hbudget := h.budget
    refine ⟨fun _ ↦ .inl rfl, ?_⟩
    change (Note.notified :: s.notes).countP Note.isUpdate + (decide (s.main = .update)).toNat + 1 ≤
      (Note.notified :: s.notes).countP Note.isNotice
    rw [List.countP_cons_of_neg (p := Note.isUpdate) (by decide),
      List.countP_cons_of_pos (p := Note.isNotice) rfl]
    omega
  | exit hp =>
    refine h.elsewhere (n := []) rfl hnone rfl ?_ nofun
    intro hup
    exact hs.not_acquired hp (hs.started (by rw [hup]; rfl))
  | semInit hp => exact h.elsewhere (n := []) rfl hnone rfl (by rw [hp]; exact nofun) nofun
  | createEvent hp => exact h.elsewhere (n := []) rfl hnone rfl (by rw [hp]; exact nofun) nofun
  | acquire n hp =>
    exact h.elsewhere (n := [.acquired]) rfl (by simp [Note.isNotice, Note.isUpdate]) rfl
      (by rw [hp]; exact nofun) nofun
  | setStop hp => exact h.elsewhere (n := []) rfl hnone rfl (by rw [hp]; exact nofun) nofun
  | destroy ret hp =>
    refine h.elsewhere (n := []) rfl hnone rfl (by rw [hp]; exact nofun) ?_
    dsimp only
    split <;> exact nofun
  | createBalloon hp => exact h.elsewhere (n := []) rfl hnone rfl (by rw [hp]; exact nofun) nofun
  | balloonBack ret lib hp =>
    exact h.elsewhere (n := []) rfl hnone rfl (by rw [hp]; exact nofun) nofun
  | freeAll ret hp =>
    exact h.elsewhere (n := [.ran .freeAllVM]) rfl (by simp [Note.isNotice, Note.isUpdate]) rfl
      (by rw [hp]; exact nofun) nofun
  | finish ret hp => exact h.elsewhere (n := []) rfl hnone rfl (by rw [hp]; exact nofun) nofun
  | kill hp => exact h.elsewhere (n := []) rfl hnone rfl (by rw [hp]; exact nofun) nofun
  | listen => exact { h with }
  | balloonTest => exact { h with }
  | rebuild =>
    exact h.of_frame (n := [.ran .freeAllVM]) rfl (by simp [Note.isNotice, Note.isUpdate]) rfl
      Iff.rfl
  | domain sec _ hsec =>
    exact h.of_frame (n := [.ran sec]) rfl
      (by cases hsec <;> simp [Note.isNotice, Note.isUpdate]) rfl Iff.rfl
  | collected =>
    exact h.of_frame (n := [.collected]) rfl (by simp [Note.isNotice, Note.isUpdate]) rfl Iff.rfl
  | post =>
    exact h.of_frame (n := [.posted true]) rfl (by simp [Note.isNotice, Note.isUpdate]) rfl Iff.rfl
  | postLost =>
    exact h.of_frame (n := [.posted false]) rfl (by simp [Note.isNotice, Note.isUpdate]) rfl
      Iff.rfl
  | stats reply =>
    exact h.of_frame (n := [.ran (.updateAllVmInfoAndMemoryStats reply)]) rfl
      (by simp [Note.isNotice, Note.isUpdate]) rfl Iff.rfl
  | cycle lib =>
    exact h.of_frame (n := [.ran (.balloonCycle lib)]) rfl
      (by simp [Note.isNotice, Note.isUpdate]) rfl Iff.rfl
  | signal sig =>
    exact h.of_frame (n := [.signalled sig]) rfl (by simp [Note.isNotice, Note.isUpdate]) rfl
      Iff.rfl

end ChangeInv

/-- In every interleaving, a rebuild that the event thread has given notice of and that no
`UpdateAllVmInfo` has followed is still in `g_libvirtChange`, or the main thread is about to run
`UpdateAllVmInfo`; and there are never more updates, done or due, than notices. -/
theorem rebuild_notice_kept (b : Boot) (acts : List ThreadAct) :
    (updateOwed (run (threadStep b) Process.init acts).notes = true →
      (run (threadStep b) Process.init acts).change = true ∨
        (run (threadStep b) Process.init acts).main = .update) ∧
    (run (threadStep b) Process.init acts).notes.countP Note.isUpdate +
        (decide ((run (threadStep b) Process.init acts).main = .update)).toNat +
        (run (threadStep b) Process.init acts).change.toNat ≤
      (run (threadStep b) Process.init acts).notes.countP Note.isNotice := by
  have hinv := process_invariant (b := b) (I := fun s ↦ StartInv b s ∧ ChangeInv s)
    ⟨startInv_init b, nofun, Nat.le_refl 0⟩
    (fun _ _ _ _ hm h ↦ ⟨startInv_move hm h.1, changeInv_move hm h.1 h.2⟩) acts
  exact ⟨hinv.2.owed, hinv.2.budget⟩

/-! ### After the stop flag is set -/

/-- A statistics section of the balloon thread. -/
def Note.isStats : Note → Bool
  | .ran (.updateAllVmInfoAndMemoryStats _) => true
  | _ => false

/-- A cycle section of the balloon thread. -/
def Note.isCycle : Note → Bool
  | .ran (.balloonCycle _) => true
  | _ => false

/-- The statistics sections before the next test of the stop flag. -/
def statsDue : Option BalloonPc → Nat
  | some .entered => 1
  | _ => 0

/-- The cycle sections before the next test of the stop flag. -/
def cyclesDue : Option BalloonPc → Nat
  | some .entered => 1
  | some .sampled => 1
  | _ => 0

/-- No signal clears the stop flag. -/
theorem Signal.number_ne_zero (sig : Signal) : sig.number ≠ 0 := by
  cases sig <;> decide

/-- The stop flag is set and the sections of the balloon thread, run and due, are bounded. -/
structure WindDown (stats cycles : Nat) (s : Process) : Prop where
  stop : s.stop ≠ 0
  stats : s.notes.countP Note.isStats + statsDue s.balloon ≤ stats
  cycles : s.notes.countP Note.isCycle + cyclesDue s.balloon ≤ cycles

section WindDown

variable {b : Boot} {s s' : Process} {m k : Nat}

private theorem WindDown.of_frame (h : WindDown m k s) {n : List Note}
    (hn : s'.notes = n ++ s.notes) (hother : ∀ x ∈ n, x.isStats = false ∧ x.isCycle = false)
    (hballoon : s'.balloon = s.balloon) (hstop : s'.stop ≠ 0) : WindDown m k s' := by
  refine ⟨hstop, ?_, ?_⟩
  · rw [hn, hballoon, countP_of_other fun x hx ↦ (hother x hx).1]
    exact h.stats
  · rw [hn, hballoon, countP_of_other fun x hx ↦ (hother x hx).2]
    exact h.cycles

private theorem windDown_move {a : ThreadAct} (hm : ThreadMoves b s a s') (h : WindDown m k s) :
    WindDown m k s' := by
  cases hm with
  | createBalloon hp hon =>
    exact ⟨h.stop, Nat.le_trans (Nat.le_add_right _ _) h.stats,
      Nat.le_trans (Nat.le_add_right _ _) h.cycles⟩
  | balloonTest hp =>
    -- The flag is set, so the thread returns.
    have hstats := h.stats
    have hcycles := h.cycles
    rw [hp] at hstats hcycles
    rw [if_neg h.stop]
    exact ⟨h.stop, hstats, hcycles⟩
  | stats reply hp =>
    have hstats := h.stats
    have hcycles := h.cycles
    rw [hp] at hstats hcycles
    refine ⟨h.stop, ?_, ?_⟩
    · change (Note.ran (.updateAllVmInfoAndMemoryStats reply) :: s.notes).countP _ + 0 ≤ m
      rw [List.countP_cons_of_pos rfl]
      exact hstats
    · change (Note.ran (.updateAllVmInfoAndMemoryStats reply) :: s.notes).countP _ + 1 ≤ k
      rw [List.countP_cons_of_neg (p := Note.isCycle)
        (a := .ran (.updateAllVmInfoAndMemoryStats reply)) Bool.false_ne_true]
      exact hcycles
  | cycle lib hp =>
    have hstats := h.stats
    have hcycles := h.cycles
    rw [hp] at hstats hcycles
    refine ⟨h.stop, ?_, ?_⟩
    · change (Note.ran (.balloonCycle lib) :: s.notes).countP _ + 0 ≤ m
      rw [List.countP_cons_of_neg (p := Note.isStats) (a := .ran (.balloonCycle lib))
        Bool.false_ne_true]
      exact hstats
    · change (Note.ran (.balloonCycle lib) :: s.notes).countP _ + 0 ≤ k
      rw [List.countP_cons_of_pos rfl]
      exact hcycles
  | setStop => exact { h with stop := Int.one_ne_zero }
  | finish => exact { h with stop := Int.one_ne_zero }
  | signal sig =>
    exact h.of_frame (n := [.signalled sig]) rfl (by simp [Note.isStats, Note.isCycle]) rfl
      sig.number_ne_zero
  | acquire n =>
    exact h.of_frame (n := [.acquired]) rfl (by simp [Note.isStats, Note.isCycle]) rfl h.stop
  | update query =>
    exact h.of_frame (n := [.ran (.updateAllVmInfo query)]) rfl
      (by simp [Note.isStats, Note.isCycle]) rfl h.stop
  | freeAll ret =>
    exact h.of_frame (n := [.ran .freeAllVM]) rfl (by simp [Note.isStats, Note.isCycle]) rfl h.stop
  | rebuild =>
    exact h.of_frame (n := [.ran .freeAllVM]) rfl (by simp [Note.isStats, Note.isCycle]) rfl h.stop
  | domain sec _ hsec =>
    exact h.of_frame (n := [.ran sec]) rfl (by cases hsec <;> simp [Note.isStats, Note.isCycle])
      rfl h.stop
  | collected =>
    exact h.of_frame (n := [.collected]) rfl (by simp [Note.isStats, Note.isCycle]) rfl h.stop
  | post =>
    exact h.of_frame (n := [.posted true]) rfl (by simp [Note.isStats, Note.isCycle]) rfl h.stop
  | postLost =>
    exact h.of_frame (n := [.posted false]) rfl (by simp [Note.isStats, Note.isCycle]) rfl h.stop
  | notify =>
    exact h.of_frame (n := [.notified]) rfl (by simp [Note.isStats, Note.isCycle]) rfl h.stop
  | _ => exact { h with }

end WindDown

/-- In every interleaving, the stop flag stays set once it is set, and the balloon thread runs at
most one more statistics section and one more cycle section, however long the exit takes. -/
theorem one_iteration_after_stop (b : Boot) (acts more : List ThreadAct)
    (h : (run (threadStep b) Process.init acts).stop ≠ 0) :
    (run (threadStep b) Process.init (acts ++ more)).stop ≠ 0 ∧
      (run (threadStep b) Process.init (acts ++ more)).notes.countP Note.isStats ≤
        (run (threadStep b) Process.init acts).notes.countP Note.isStats + 1 ∧
      (run (threadStep b) Process.init (acts ++ more)).notes.countP Note.isCycle ≤
        (run (threadStep b) Process.init acts).notes.countP Note.isCycle + 1 := by
  rw [run_append]
  generalize run (threadStep b) Process.init acts = s at h ⊢
  have hdue : statsDue s.balloon ≤ 1 ∧ cyclesDue s.balloon ≤ 1 := by
    rcases s.balloon with _ | _ | _ | _ | _ <;> decide
  have hinv : WindDown (s.notes.countP Note.isStats + 1) (s.notes.countP Note.isCycle + 1)
      (run (threadStep b) s more) :=
    process_invariant ⟨h, Nat.add_le_add_left hdue.1 _, Nat.add_le_add_left hdue.2 _⟩
      (fun _ _ _ _ hm h ↦ windDown_move hm h) more
  exact ⟨hinv.stop, Nat.le_trans (Nat.le_add_right _ _) hinv.stats,
    Nat.le_trans (Nat.le_add_right _ _) hinv.cycles⟩

/-- The balloon thread is past its test when the signal comes. -/
def signalRun : List ThreadAct := startRun ++ [.balloon .testStop, .signal .term]

/-- It runs its iteration to the end while the main thread exits. -/
def windDownRun : List ThreadAct :=
  [.main .testStop, .balloon (.stats restoredStats), .balloon (.cycle (fun _ ↦ true)),
    .balloon .testStop, .balloon (.stats restoredStats)]

/-- That iteration is its last. -/
theorem one_iteration_after_stop_signal :
    (run (threadStep plainBoot) Process.init (signalRun ++ windDownRun)).notes.countP
        Note.isStats ≤
      (run (threadStep plainBoot) Process.init signalRun).notes.countP Note.isStats + 1 := by
  have hstop : (run (threadStep plainBoot) Process.init signalRun).stop = 15 := by decide +kernel
  exact (one_iteration_after_stop plainBoot signalRun windDownRun (by simp [hstop])).2.1

end Memlink
