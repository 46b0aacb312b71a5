/-!
# Loops over a list of records

Two loop shapes. `updateFirst` searches a list and changes the first match in place.
`mapState` visits every element, may replace it and threads a state; `Traversal` is its
effect when the state is a growing output: which elements were replaced by what, and what
was emitted. With distinct keys the emissions of one element can be told apart again.
-/

namespace Memlink

universe u v w x

/-! ### The first match -/

section FirstMatch

variable {α : Type u} {κ : Type v}

/-- Replace the first element that satisfies `p`. -/
def updateFirst (p : α → Bool) (f : α → α) : List α → List α
  | [] => []
  | a :: as => if p a then f a :: as else a :: updateFirst p f as

/-- With distinct keys, updating the first element of a key updates every element of it. -/
theorem updateFirst_eq_map [DecidableEq κ] (key : α → κ) (k : κ) (f : α → α) {as : List α}
    (hnd : (as.map key).Nodup) :
    updateFirst (fun a ↦ key a = k) f as = as.map (fun a ↦ if key a = k then f a else a) := by
  induction as with
  | nil => rfl
  | cons a as ih =>
    rw [List.map_cons, List.nodup_cons] at hnd
    unfold updateFirst
    by_cases ha : key a = k
    · have hrest : as.map (fun b ↦ if key b = k then f b else b) = as := by
        apply (List.map_congr_left fun b hb ↦ ?_).trans (List.map_id' as)
        have hne : key b ≠ k := fun hk ↦ hnd.1 ((ha.trans hk.symm) ▸ List.mem_map_of_mem hb)
        simp only [hne, if_false]
      simp only [ha, decide_true, if_true, List.map_cons, hrest]
    · simp only [ha, decide_false, Bool.false_eq_true, if_false, List.map_cons, ih hnd.2]

/-- With distinct keys, the first element of a key is the only one. -/
theorem find?_eq_some_of_nodup [DecidableEq κ] (key : α → κ) {as : List α}
    (hnd : (as.map key).Nodup) {a : α} (ha : a ∈ as) :
    as.find? (fun b ↦ key b = key a) = some a := by
  induction as with
  | nil => cases ha
  | cons b as ih =>
    rw [List.map_cons, List.nodup_cons] at hnd
    rcases List.mem_cons.mp ha with rfl | ha
    · simp
    · have hne : key b ≠ key a := fun he ↦ hnd.1 (he ▸ List.mem_map_of_mem ha)
      simp [hne, ih hnd.2 ha]

/-- With distinct keys, elements of the same key are the same element. -/
theorem eq_of_key_eq (key : α → κ) {as : List α} (hnd : (as.map key).Nodup) {a b : α}
    (ha : a ∈ as) (hb : b ∈ as) (hk : key a = key b) : a = b := by
  classical
  have h := find?_eq_some_of_nodup key hnd ha
  rw [hk, find?_eq_some_of_nodup key hnd hb] at h
  exact (Option.some.inj h).symm

/-- With distinct keys, removing the first element of a key removes the key. -/
theorem not_mem_map_eraseP [DecidableEq κ] (key : α → κ) {as : List α}
    (hnd : (as.map key).Nodup) (k : κ) :
    k ∉ (as.eraseP (fun b ↦ key b = k)).map key := by
  induction as with
  | nil => simp
  | cons b as ih =>
    rw [List.map_cons, List.nodup_cons] at hnd
    by_cases hb : key b = k
    · rw [List.eraseP_cons_of_pos (by simpa using hb)]
      exact hb ▸ hnd.1
    · rw [List.eraseP_cons_of_neg (by simpa using hb), List.map_cons, List.mem_cons, not_or]
      exact ⟨fun he ↦ hb he.symm, ih hnd.2⟩

/-- With distinct keys, removing the found element by its key removes the first match. -/
theorem eraseP_key_of_find? [DecidableEq κ] (key : α → κ) {as : List α}
    (hnd : (as.map key).Nodup) {p : α → Bool} {a : α} (h : as.find? p = some a) :
    as.eraseP (fun b ↦ key b = key a) = as.eraseP p := by
  induction as with
  | nil => cases h
  | cons b as ih =>
    rw [List.map_cons, List.nodup_cons] at hnd
    by_cases hb : p b = true
    · rw [List.find?_cons_of_pos hb] at h
      obtain rfl := Option.some.inj h
      rw [List.eraseP_cons_of_pos (by simp), List.eraseP_cons_of_pos hb]
    · rw [List.find?_cons_of_neg hb] at h
      have hne : key b ≠ key a := fun he ↦
        hnd.1 (he ▸ List.mem_map_of_mem (List.mem_of_find?_eq_some h))
      rw [List.eraseP_cons_of_neg (by simpa using hne), List.eraseP_cons_of_neg hb, ih hnd.2 h]

end FirstMatch

/-! ### Visiting every element -/

section Visit

variable {α : Type u} {β : Type v} {ι : Type w}

/-- Visit a list from its head, replacing each element and threading a state. -/
def mapState {σ : Type v} (f : α → σ → α × σ) : List α → σ → List α × σ
  | [], s => ([], s)
  | a :: as, s =>
    let r := f a s
    let rs := mapState f as r.2
    (r.1 :: rs.1, rs.2)

/-- The effect of a visit in which element `a`, under a choice `i`, is replaced by
`(out a i).1` and emits `(out a i).2`; the emissions are collected newest first. -/
inductive Traversal (out : α → ι → α × List β) : List α → List α → List β → Prop where
  | nil : Traversal out [] [] []
  | cons (a : α) (i : ι) {as as' : List α} {sent : List β} :
      Traversal out as as' sent →
      Traversal out (a :: as) ((out a i).1 :: as') (sent ++ (out a i).2)

/-- A visit whose body only prepends to the state is a traversal. -/
theorem mapState_traversal {f : α → List β → α × List β} {out : α → ι → α × List β}
    (hf : ∀ a log, ∃ i, f a log = ((out a i).1, (out a i).2 ++ log)) (as : List α)
    (log : List β) :
    ∃ as' sent, mapState f as log = (as', sent ++ log) ∧ Traversal out as as' sent := by
  induction as generalizing log with
  | nil => exact ⟨[], [], rfl, .nil⟩
  | cons a as ih =>
    obtain ⟨i, hi⟩ := hf a log
    obtain ⟨as', sent, he, ht⟩ := ih ((out a i).2 ++ log)
    refine ⟨(out a i).1 :: as', sent ++ (out a i).2, ?_, .cons a i ht⟩
    simp only [mapState, hi, he, List.append_assoc]

variable {out : α → ι → α × List β} {as as' : List α} {sent : List β}

/-- Every element after the visit comes from one before it. -/
theorem Traversal.exists_source (h : Traversal out as as' sent) {b : α} (hb : b ∈ as') :
    ∃ a ∈ as, ∃ i, b = (out a i).1 := by
  induction h with
  | nil => cases hb
  | cons a i _ ih =>
    rcases List.mem_cons.mp hb with rfl | hb
    · exact ⟨a, List.mem_cons_self, i, rfl⟩
    · obtain ⟨c, hc, hi⟩ := ih hb
      exact ⟨c, List.mem_cons_of_mem a hc, hi⟩

/-- Everything emitted was emitted by an element under the choice made for it. -/
theorem Traversal.exists_emitter (h : Traversal out as as' sent) {c : β} (hc : c ∈ sent) :
    ∃ a ∈ as, ∃ i, c ∈ (out a i).2 := by
  induction h with
  | nil => cases hc
  | cons a i _ ih =>
    rcases List.mem_append.mp hc with hc | hc
    · obtain ⟨b, hb, hi⟩ := ih hc
      exact ⟨b, List.mem_cons_of_mem a hb, hi⟩
    · exact ⟨a, List.mem_cons_self, i, hc⟩

/-- A key that every replacement keeps is kept by the whole visit. -/
theorem Traversal.map_eq {κ : Type x} {key : α → κ} (hkey : ∀ a i, key (out a i).1 = key a)
    (h : Traversal out as as' sent) : as'.map key = as.map key := by
  induction h with
  | nil => rfl
  | cons a i _ ih => simp only [List.map_cons, hkey, ih]

section Keyed

variable {κ : Type x} [DecidableEq κ] {key : α → κ} {keyOf : β → κ}

/-- Nothing is emitted under a key that no element has. -/
theorem Traversal.filter_eq_nil (hown : ∀ a i, ∀ c ∈ (out a i).2, keyOf c = key a)
    (h : Traversal out as as' sent) {k : κ} (hk : k ∉ as.map key) :
    sent.filter (fun c ↦ keyOf c = k) = [] := by
  apply List.filter_eq_nil_iff.mpr
  intro c hc hck
  obtain ⟨a, ha, i, hi⟩ := h.exists_emitter hc
  have hka : key a = k := (hown a i c hi).symm.trans (by simpa using hck)
  exact hk (List.mem_map.mpr ⟨a, ha, hka⟩)

/-- With distinct keys, each element is replaced and emits under one choice, and the
emissions under its key are its own. -/
theorem Traversal.project (hown : ∀ a i, ∀ c ∈ (out a i).2, keyOf c = key a)
    (h : Traversal out as as' sent) (hnd : (as.map key).Nodup) {a : α} (ha : a ∈ as) :
    ∃ i, (out a i).1 ∈ as' ∧ sent.filter (fun c ↦ keyOf c = key a) = (out a i).2 := by
  induction h with
  | nil => cases ha
  | @cons b i bs bs' sent ht ih =>
    rw [List.map_cons, List.nodup_cons] at hnd
    rcases List.mem_cons.mp ha with rfl | ha
    · refine ⟨i, List.mem_cons_self, ?_⟩
      rw [List.filter_append, ht.filter_eq_nil hown hnd.1, List.nil_append]
      apply List.filter_eq_self.mpr
      intro c hc
      simpa using hown a i c hc
    · obtain ⟨j, hj, hs⟩ := ih hnd.2 ha
      refine ⟨j, List.mem_cons_of_mem _ hj, ?_⟩
      have hne : key b ≠ key a := fun he ↦ hnd.1 (he ▸ List.mem_map_of_mem ha)
      have hnone : (out b i).2.filter (fun c ↦ keyOf c = key a) = [] := by
        apply List.filter_eq_nil_iff.mpr
        intro c hc
        simpa [hown b i c hc] using hne
      rw [List.filter_append, hs, hnone, List.append_nil]

end Keyed

end Visit

end Memlink
