import Memlink.Base.CString

/-!
# The buffers of line input

What a loop over `fgets` reads, as a decomposition of the input: each buffer is a line, or as
much of one as fits. The rules below read such a loop buffer by buffer, and say where the
boundaries between the buffers lie when the input is put together from pieces.
-/

namespace Memlink.CString

/-- `fgets` with room for `n` bytes takes `buf` off an input and leaves `rest`. -/
structure Fills (n : Nat) (buf rest : List UInt8) : Prop where
  ne_nil : buf ≠ []
  length_le : buf.length ≤ n
  single : '\n'.toUInt8 ∉ buf.dropLast
  stop : buf.getLast? = some '\n'.toUInt8 ∨ buf.length = n ∨ rest = []

/-- The input ends where a line does. -/
def EndsLine (input : List UInt8) : Prop := input = [] ∨ input.getLast? = some '\n'.toUInt8

private theorem fgetsFrom_append {n left : Nat} {buf rest : List UInt8} (h : Fills left buf rest) :
    fgetsFrom n left (buf ++ rest) = buf :: fgetsFrom n n rest := by
  induction buf generalizing left with
  | nil => exact absurd rfl h.ne_nil
  | cons c buf ih =>
    rw [List.cons_append, fgetsFrom]
    cases buf with
    | nil =>
      by_cases hstop : c = '\n'.toUInt8 ∨ left ≤ 1
      · rw [if_pos hstop, List.nil_append]
      · -- The buffer has room left after a last line without newline.
        have hrest : rest = [] := by
          rcases h.stop with hlast | hlen | hrest
          · exact absurd (.inl (by simpa using hlast)) hstop
          · exact absurd (.inr (by simp at hlen; omega)) hstop
          · exact hrest
        rw [if_neg hstop, hrest]
        rfl
    | cons d buf =>
      have hnl : c ≠ '\n'.toUInt8 := fun he ↦ h.single (by simp [he])
      have hlen := h.length_le
      simp only [List.length_cons] at hlen
      have htail : Fills (left - 1) (d :: buf) rest := by
        refine ⟨List.cons_ne_nil _ _, by simp only [List.length_cons]; omega, ?_, ?_⟩
        · intro hmem
          apply h.single
          rw [List.dropLast_cons_of_ne_nil (List.cons_ne_nil d buf)]
          exact List.mem_cons_of_mem c hmem
        · rcases h.stop with hlast | hfull | hrest
          · exact .inl (by rw [← hlast, List.getLast?_cons_cons])
          · exact .inr (.inl (by simp only [List.length_cons] at hfull ⊢; omega))
          · exact .inr (.inr hrest)
      rw [if_neg (by simp [hnl]; omega), ih htail]

/-- The loop reads one buffer and goes on with what is left. -/
theorem fgetsLines_append {size : Nat} {buf rest : List UInt8} (h : Fills (size - 1) buf rest) :
    fgetsLines size (buf ++ rest) = buf :: fgetsLines size rest :=
  fgetsFrom_append h

/-- A buffer that ends a line or is full is taken off whatever follows. -/
theorem Fills.of_stop {n : Nat} {buf rest : List UInt8} (h : Fills n buf rest)
    (hstop : buf.getLast? = some '\n'.toUInt8 ∨ buf.length = n) (rest' : List UInt8) :
    Fills n buf rest' := by
  refine ⟨h.ne_nil, h.length_le, h.single, ?_⟩
  rcases hstop with hlast | hfull
  · exact .inl hlast
  · exact .inr (.inl hfull)

/-- A buffer before further input ends a line or is full. -/
theorem Fills.stop_of_ne_nil {n : Nat} {buf rest : List UInt8} (h : Fills n buf rest)
    (hrest : rest ≠ []) : buf.getLast? = some '\n'.toUInt8 ∨ buf.length = n := by
  rcases h.stop with hlast | hfull | hnil
  · exact .inl hlast
  · exact .inr hfull
  · exact absurd hnil hrest

/-- What stands before another byte of a buffer is short and on one line. -/
theorem Fills.inside {n : Nat} {t p rest : List UInt8} {c : UInt8}
    (h : Fills n (t ++ c :: p) rest) : '\n'.toUInt8 ∉ t ∧ t.length < n := by
  have hlen := h.length_le
  rw [List.length_append, List.length_cons] at hlen
  refine ⟨fun hmem ↦ h.single ?_, by omega⟩
  rw [List.dropLast_append_of_ne_nil (List.cons_ne_nil _ _)]
  exact List.mem_append_left _ hmem

/-- A buffer that does not end a line contains no newline. -/
theorem Fills.newline_not_mem {n : Nat} {buf rest : List UInt8} (h : Fills n buf rest)
    (hlast : buf.getLast? ≠ some '\n'.toUInt8) : '\n'.toUInt8 ∉ buf := by
  intro hmem
  rw [← List.dropLast_concat_getLast h.ne_nil] at hmem
  rcases List.mem_append.mp hmem with hmem | hmem
  · exact h.single hmem
  · apply hlast
    rw [List.getLast?_eq_some_getLast h.ne_nil, List.mem_singleton.mp hmem]

/-- The string in a buffer, if there is one, is a last line. -/
theorem Fills.ofBuffer {n : Nat} {buf rest : List UInt8} (h : Fills n buf rest)
    (hne : ofBuffer buf ≠ []) : Fills n (ofBuffer buf) [] := by
  refine ⟨hne, (List.takeWhile_prefix _).length_le.trans h.length_le, ?_, .inr (.inr rfl)⟩
  by_cases hnul : 0 ∈ buf
  · obtain ⟨seg, more, rfl, hseg⟩ := List.eq_append_cons_of_mem hnul
    rw [ofBuffer_append_cons hseg]
    exact fun hmem ↦ h.inside.1 ((List.dropLast_sublist _).subset hmem)
  · rw [ofBuffer_eq_self hnul]
    exact h.single

/-- A line that fits is one buffer. -/
theorem fills_line {n : Nat} {s : List UInt8} (hnl : '\n'.toUInt8 ∉ s) (hlen : s.length < n)
    (rest : List UInt8) : Fills n (s ++ ['\n'.toUInt8]) rest := by
  refine ⟨by simp, by simp only [List.length_append, List.length_singleton]; omega, ?_, ?_⟩
  · rwa [List.dropLast_concat]
  · exact .inl List.getLast?_concat

/-- A line that does not fit begins with a full buffer. -/
theorem fills_take {n : Nat} (hn : 0 < n) {s : List UInt8} (hnl : '\n'.toUInt8 ∉ s)
    (hlen : n ≤ s.length) (rest : List UInt8) : Fills n (s.take n) rest := by
  have hfull : (s.take n).length = n := by rw [List.length_take]; omega
  refine ⟨?_, by omega, fun hmem ↦ ?_, .inr (.inl hfull)⟩
  · intro hnil
    rw [hnil, List.length_nil] at hfull
    omega
  · exact hnl (List.mem_of_mem_take ((List.dropLast_sublist _).subset hmem))

/-- `fgets` takes something off every input. -/
theorem exists_fills {n : Nat} (hn : 0 < n) {input : List UInt8} (h : input ≠ []) :
    ∃ buf rest, input = buf ++ rest ∧ Fills n buf rest := by
  induction input generalizing n with
  | nil => exact absurd rfl h
  | cons c input ih =>
    by_cases hone : c = '\n'.toUInt8 ∨ n = 1 ∨ input = []
    · refine ⟨[c], input, rfl, List.cons_ne_nil _ _, hn, by simp, ?_⟩
      rcases hone with hc | hn | hinput
      · exact .inl (by simp [hc])
      · exact .inr (.inl hn.symm)
      · exact .inr (.inr hinput)
    · simp only [not_or] at hone
      obtain ⟨hc, hn1, hinput⟩ := hone
      obtain ⟨buf, rest, rfl, hfills⟩ := ih (n := n - 1) (by omega) hinput
      have hlen := hfills.length_le
      refine ⟨c :: buf, rest, rfl, List.cons_ne_nil _ _, by simp only [List.length_cons]; omega,
        ?_, ?_⟩
      · rw [List.dropLast_cons_of_ne_nil hfills.ne_nil]
        intro hmem
        rcases List.mem_cons.mp hmem with he | hmem
        · exact hc he.symm
        · exact hfills.single hmem
      · rcases hfills.stop with hlast | hfull | hrest
        · left
          obtain ⟨d, buf, rfl⟩ := List.exists_cons_of_ne_nil hfills.ne_nil
          rw [List.getLast?_cons_cons, hlast]
        · exact .inr (.inl (by simp only [List.length_cons]; omega))
        · exact .inr (.inr hrest)

/-- Induction over the buffers of an input. -/
theorem fgets_induction {n : Nat} (hn : 0 < n) {motive : List UInt8 → Prop} (nil : motive [])
    (fills : ∀ buf rest, Fills n buf rest → motive rest → motive (buf ++ rest))
    (input : List UInt8) : motive input := by
  induction hlen : input.length using Nat.strongRecOn generalizing input with
  | ind m ih =>
    by_cases hinput : input = []
    · rw [hinput]
      exact nil
    · obtain ⟨buf, rest, rfl, hfills⟩ := exists_fills hn hinput
      have hpos := List.length_pos_iff.mpr hfills.ne_nil
      rw [List.length_append] at hlen
      exact fills buf rest hfills (ih rest.length (by omega) rest rfl)

variable {size : Nat}

/-- What the loop reads into its buffer was taken off some input. -/
theorem exists_fills_of_mem (hsize : 1 < size) {input buf : List UInt8}
    (h : buf ∈ fgetsLines size input) : ∃ rest, Fills (size - 1) buf rest := by
  induction input using fgets_induction (n := size - 1) (by omega) with
  | nil => cases h
  | fills first rest hfills ih =>
    rw [fgetsLines_append hfills] at h
    rcases List.mem_cons.mp h with rfl | h
    · exact ⟨rest, hfills⟩
    · exact ih h

/-- After the end of a line the loop starts afresh. -/
theorem fgetsLines_append_of_endsLine (hsize : 1 < size) {before : List UInt8}
    (h : EndsLine before) (rest : List UInt8) :
    fgetsLines size (before ++ rest) = fgetsLines size before ++ fgetsLines size rest := by
  induction before using fgets_induction (n := size - 1) (by omega) with
  | nil => rfl
  | fills buf tail hfills ih =>
    have hlast : (buf ++ tail).getLast? = some '\n'.toUInt8 := by
      rcases h with h | h
      · exact absurd (List.append_eq_nil_iff.mp h).1 hfills.ne_nil
      · exact h
    have htail : EndsLine tail := by
      by_cases ht : tail = []
      · exact .inl ht
      · right
        rw [← hlast, List.getLast?_append, List.getLast?_eq_some_getLast ht]
        rfl
    have hmore : Fills (size - 1) buf (tail ++ rest) := by
      refine ⟨hfills.ne_nil, hfills.length_le, hfills.single, ?_⟩
      rcases hfills.stop with hstop | hfull | ht
      · exact .inl hstop
      · exact .inr (.inl hfull)
      · rw [ht, List.append_nil] at hlast
        exact .inl hlast
    rw [List.append_assoc, fgetsLines_append hmore, fgetsLines_append hfills, ih htail,
      List.cons_append]

end Memlink.CString
