/-!
# Armed counters

A counter that one event arms, others advance and one more takes off, read off a history of
events, newest first. It is off while nothing armed it since it last fired; otherwise it
stands at one more than the number of counted events since it was last armed.
-/

namespace Memlink

universe u

/-- How an armed counter reads events. -/
structure ArmedCounter (ε : Type u) where
  arms : ε → Bool
  counts : ε → Bool
  fires : ε → Bool

namespace ArmedCounter

variable {ε : Type u} (k : ArmedCounter ε)

/-- Some event armed the counter since it last fired. -/
def armed (h : List ε) : Bool := (h.takeWhile (fun e ↦ !k.fires e)).any k.arms

/-- The number of counted events since the counter was last armed. -/
def counted (h : List ε) : Nat := (h.takeWhile (fun e ↦ !k.arms e)).countP k.counts

/-- Where the counter stands. -/
def level (h : List ε) : Nat := if k.armed h then 1 + k.counted h else 0

variable {k} {e : ε} {h : List ε}

/-- A firing counter is off. -/
theorem level_fires (hf : k.fires e = true) : k.level (e :: h) = 0 := by
  simp [level, armed, hf]

/-- A counter starts at one. -/
theorem level_arms (hf : k.fires e = false) (ha : k.arms e = true) : k.level (e :: h) = 1 := by
  simp [level, armed, counted, hf, ha]

/-- A counted event advances a counter that is not off. -/
theorem level_counts (hf : k.fires e = false) (ha : k.arms e = false) (hc : k.counts e = true) :
    k.level (e :: h) = if k.level h = 0 then 0 else k.level h + 1 := by
  have harmed : k.armed (e :: h) = k.armed h := by simp [armed, hf, ha]
  have hcounted : k.counted (e :: h) = k.counted h + 1 := by simp [counted, ha, hc]
  unfold level
  rw [harmed, hcounted]
  cases k.armed h with
  | true =>
    simp only [if_true]
    rw [if_neg (by omega)]
    omega
  | false => simp

/-- Any other event leaves the counter. -/
theorem level_other (hf : k.fires e = false) (ha : k.arms e = false) (hc : k.counts e = false) :
    k.level (e :: h) = k.level h := by
  simp [level, armed, counted, hf, ha, hc]

/-- Where a counter stands above zero, it was armed and counted that far. -/
theorem level_eq_succ {n : Nat} : k.level h = n + 1 ↔ k.armed h = true ∧ k.counted h = n := by
  unfold level
  cases k.armed h with
  | true =>
    simp only [if_true, true_and]
    omega
  | false => simp

/-- A counter that fired and stands above zero again was armed in between, and has counted
since without being armed or fired. -/
theorem exists_arming {newer : List ε} {f : ε} {older : List ε} (hf : k.fires f = true)
    {n : Nat} (hn : k.level (newer ++ f :: older) = n + 1) :
    ∃ since a before, newer = since ++ a :: before ∧ k.arms a = true ∧
      since.countP k.counts = n ∧ ∀ e ∈ since, k.arms e = false := by
  induction newer generalizing n with
  | nil =>
    rw [List.nil_append, level_fires hf] at hn
    cases hn
  | cons e newer ih =>
    rw [List.cons_append] at hn
    cases hfe : k.fires e with
    | true =>
      rw [level_fires hfe] at hn
      cases hn
    | false =>
      cases hae : k.arms e with
      | true =>
        rw [level_arms hfe hae] at hn
        refine ⟨[], e, newer, rfl, hae, ?_, fun _ hm ↦ absurd hm List.not_mem_nil⟩
        simp only [List.countP_nil]
        omega
      | false =>
        -- Neither armed nor fired here: the arming event lies further back.
        have hback : ∀ m, k.level (newer ++ f :: older) = m + 1 →
            n = m + (if k.counts e then 1 else 0) → ∃ since a before,
              e :: newer = since ++ a :: before ∧ k.arms a = true ∧
                since.countP k.counts = n ∧ ∀ e ∈ since, k.arms e = false := by
          intro m hm hnm
          obtain ⟨since, a, before, rfl, ha, hcount, hnone⟩ := ih hm
          refine ⟨e :: since, a, before, rfl, ha, ?_, List.forall_mem_cons.mpr ⟨hae, hnone⟩⟩
          rw [List.countP_cons, hcount, hnm]
        cases hce : k.counts e with
        | true =>
          rw [level_counts hfe hae hce] at hn
          split at hn
          · cases hn
          · next hz => exact hback (n - 1) (by omega) (by simp [hce]; omega)
        | false =>
          rw [level_other hfe hae hce] at hn
          exact hback n hn (by simp [hce])

end ArmedCounter

end Memlink
