import Mathlib.Data.List.Infix
import Mathlib.Data.List.TakeWhile

/-!
# Separated data

Data in which one value separates the parts, as a NUL separates the arguments of a command
line. A word without the separator lies inside one part.
-/

namespace List

variable {α : Type*} {a : α} {word xs ys : List α}

/-- A word without the separator does not reach across it. -/
theorem infix_append_cons_iff_of_notMem (ha : a ∉ word) :
    word <:+: xs ++ a :: ys ↔ word <:+: xs ∨ word <:+: ys := by
  constructor
  · intro h
    rcases infix_append_iff.mp h with hleft | hright | ⟨w₁, w₂, rfl, hw₁, hw₂⟩
    · exact .inl hleft
    · rcases infix_cons_iff.mp hright with hstart | htail
      · -- A word that begins at the separator is empty.
        cases word with
        | nil => exact .inl nil_infix
        | cons c word =>
          obtain ⟨rfl, -⟩ := cons_prefix_cons.mp hstart
          exact absurd mem_cons_self ha
      · exact .inr htail
    · cases w₂ with
      | nil =>
        rw [append_nil]
        exact .inl hw₁.isInfix
      | cons c w₂ =>
        obtain ⟨rfl, -⟩ := cons_prefix_cons.mp hw₂
        exact absurd (mem_append_right _ mem_cons_self) ha
  · rintro (h | h)
    · exact infix_append_of_infix_left h
    · exact infix_append_of_infix_right (infix_cons h)

/-- It is not found at the separator itself. -/
theorem infix_cons_iff_of_notMem (hne : word ≠ []) (ha : a ∉ word) :
    word <:+: a :: ys ↔ word <:+: ys := by
  rw [← nil_append (a :: ys), infix_append_cons_iff_of_notMem ha, infix_nil]
  simp [hne]

/-- Nor does it when it stands at the start. -/
theorem prefix_of_prefix_append_cons (ha : a ∉ word) (h : word <+: xs ++ a :: ys) :
    word <+: xs := by
  have hstart : xs ++ [a] <+: xs ++ a :: ys := ⟨ys, by simp⟩
  rcases prefix_or_prefix_of_prefix h hstart with hword | hword
  · rcases prefix_concat_iff.mp hword with heq | hword
    · exact absurd (by simp [heq]) ha
    · exact hword
  · exact absurd (hword.subset (by simp)) ha

/-- A word without the separator occurs exactly inside the parts. -/
theorem exists_infix_splitOn_iff [BEq α] [LawfulBEq α] (ha : a ∉ word) (xs : List α) :
    (∃ part ∈ xs.splitOn a, word <:+: part) ↔ word <:+: xs := by
  induction hlen : xs.length using Nat.strongRecOn generalizing xs with
  | ind n ih =>
    by_cases hmem : a ∈ xs
    · obtain ⟨first, rest, rfl, hfirst⟩ := eq_append_cons_of_mem hmem
      rw [splitOn_append_cons_self_of_not_mem hfirst, exists_mem_cons_iff,
        infix_append_cons_iff_of_notMem ha,
        ih rest.length (by simp only [length_append, length_cons] at hlen; omega) rest rfl]
    · rw [splitOn_eq_singleton hmem]
      simp

/-- A value in a part is a value of the whole. -/
theorem mem_of_mem_splitOn [BEq α] [LawfulBEq α] {b : α} (hab : a ≠ b) {part : List α}
    (hpart : part ∈ xs.splitOn a) (hb : b ∈ part) : b ∈ xs := by
  have hword : a ∉ [b] := by simpa using hab
  rw [← singleton_infix_iff]
  apply (exists_infix_splitOn_iff hword xs).mp
  exact ⟨part, hpart, (singleton_infix_iff b part).mpr hb⟩

/-! ### Non-empty parts -/

section Parts

variable [DecidableEq α]

/-- The parts that are not empty. -/
def parts (a : α) (xs : List α) : List (List α) := (xs.splitOn a).filter (· ≠ [])

/-- They are parts. -/
theorem mem_parts {part : List α} : part ∈ parts a xs ↔ part ∈ xs.splitOn a ∧ part ≠ [] := by
  simp [parts]

/-- A separator at the start makes no part. -/
theorem parts_cons_self (a : α) (xs : List α) : parts a (a :: xs) = parts a xs := by
  have hsplit := splitOn_append_cons_self_of_not_mem (not_mem_nil (a := a)) xs
  unfold parts
  rw [← nil_append (a :: xs), hsplit]
  simp

/-- Nor do several. -/
theorem parts_dropWhile (a : α) (xs : List α) :
    parts a (xs.dropWhile (· = a)) = parts a xs := by
  induction xs with
  | nil => rfl
  | cons x xs ih =>
    by_cases hx : x = a
    · rw [dropWhile_cons_of_pos (by simpa using hx), ih, hx, parts_cons_self]
    · rw [dropWhile_cons_of_neg (by simpa using hx)]

/-- What starts with another value has the text up to the first separator as its first part. -/
theorem parts_cons_of_ne {x : α} (hx : x ≠ a) (xs : List α) :
    parts a (x :: xs) =
      (x :: xs.takeWhile (· ≠ a)) :: parts a ((xs.dropWhile (· ≠ a)).drop 1) := by
  have hfirst : a ∉ x :: xs.takeWhile (· ≠ a) := by
    intro hmem
    rcases mem_cons.mp hmem with rfl | hmem
    · exact hx rfl
    · simpa using mem_takeWhile_imp hmem
  have hxs := takeWhile_append_dropWhile (p := (· ≠ a)) (l := xs)
  cases hrest : xs.dropWhile (· ≠ a) with
  | nil =>
    rw [hrest, append_nil] at hxs
    rw [hxs] at hfirst ⊢
    unfold parts
    rw [splitOn_eq_singleton hfirst]
    simp
  | cons y rest =>
    obtain rfl : y = a := by
      have hhead := head?_dropWhile_not (· ≠ a) xs
      rw [hrest] at hhead
      simpa using hhead
    rw [hrest] at hxs
    unfold parts
    conv => lhs; rw [← hxs, ← cons_append]
    rw [splitOn_append_cons_self_of_not_mem hfirst]
    simp

end Parts

end List
