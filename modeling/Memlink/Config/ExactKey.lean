import Mathlib.Data.List.DropRight
import Memlink.Base.LineInput
import Memlink.Config.Lookup

/-!
# Lookups and exact keys

Whether the value of a lookup stands on a line of that very key. `GetIntegerValueFromCfg`
compares the first bytes of each buffer with the key and nothing else
(`memlink_driver.c:358`), so a longer key that begins with it, or the inside of a line that
is longer than the buffer, supplies a value, too.
-/

namespace Memlink

open CString

/-- `line` is a whole line of the file `before ++ line ++ after`. -/
structure IsLine (before line after : List UInt8) : Prop where
  start : EndsLine before
  single : '\n'.toUInt8 ∉ line.dropLast
  stop : line.getLast? = some '\n'.toUInt8 ∨ line ≠ [] ∧ after = []

/-- The text before the first `'='`, without trailing spaces. -/
def keyText (line : List UInt8) : List UInt8 :=
  (line.takeWhile (· ≠ '='.toUInt8)).rdropWhile (· = ' '.toUInt8)

/-- The loop of the lookup passes the buffers `pre` and stops at `buf`. -/
structure StopsAt (key content : List UInt8) (pre : List (List UInt8)) (buf : List UInt8)
    (post : List (List UInt8)) : Prop where
  buffers : fgetsLines lineMaxChar content = pre ++ buf :: post
  passed : ∀ b ∈ pre, supplied key b = none
  found : (supplied key buf).isSome = true

/-- The key is the beginning of its line. -/
theorem keyText_prefix (line : List UInt8) : keyText line <+: line :=
  (List.rdropWhile_prefix _ _).trans (List.takeWhile_prefix _)

/-- The number of the buffer at which the loop stops is the one that is found. -/
theorem StopsAt.firstNumber_eq {key content buf : List UInt8} {pre post : List (List UInt8)}
    (h : StopsAt key content pre buf post) : firstNumber key content = supplied key buf := by
  obtain ⟨x, hx⟩ := Option.isSome_iff_exists.mp h.found
  rw [hx]
  exact List.findSome?_eq_some_iff.mpr ⟨pre, buf, post, h.buffers, hx, h.passed⟩

/-- The loop stops at one place. -/
theorem StopsAt.unique {key content buf buf' : List UInt8} {pre post pre' post' : List (List UInt8)}
    (h : StopsAt key content pre buf post) (h' : StopsAt key content pre' buf' post') :
    pre = pre' ∧ buf = buf' ∧ post = post' := by
  have hsplit := h.buffers.symm.trans h'.buffers
  rcases List.append_eq_append_iff.mp hsplit with ⟨mid, hpre, hrest⟩ | ⟨mid, hpre, hrest⟩
  · cases mid with
    | nil =>
      obtain ⟨hbuf, hpost⟩ := List.cons.inj hrest
      exact ⟨by simpa using hpre.symm, hbuf, hpost⟩
    | cons b mid =>
      obtain ⟨rfl, _⟩ := List.cons.inj hrest
      have hnone := h'.passed buf (by simp [hpre])
      exact absurd hnone (Option.isSome_iff_ne_none.mp h.found)
  · cases mid with
    | nil =>
      obtain ⟨hbuf, hpost⟩ := List.cons.inj hrest
      exact ⟨by simpa using hpre, hbuf.symm, hpost.symm⟩
    | cons b mid =>
      obtain ⟨rfl, _⟩ := List.cons.inj hrest
      have hnone := h.passed buf' (by simp [hpre])
      exact absurd hnone (Option.isSome_iff_ne_none.mp h'.found)

/-- A whole line that fits into the buffer is read into it. -/
theorem IsLine.buffers {before line after : List UInt8} (h : IsLine before line after)
    (hlen : line.length < lineMaxChar) :
    fgetsLines lineMaxChar (before ++ line ++ after) =
      fgetsLines lineMaxChar before ++ line :: fgetsLines lineMaxChar after := by
  have hfills : Fills (lineMaxChar - 1) line after := by
    refine ⟨?_, Nat.le_pred_of_lt hlen, h.single, ?_⟩
    · rintro rfl
      rcases h.stop with hs | hs
      · cases hs
      · exact hs.1 rfl
    · rcases h.stop with hs | hs
      · exact .inl hs
      · exact .inr (.inr hs.2)
  rw [List.append_assoc, fgetsLines_append_of_endsLine (by decide) h.start,
    fgetsLines_append hfills]

end Memlink
