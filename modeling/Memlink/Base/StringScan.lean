import Memlink.Base.CString
import Memlink.Base.Segments

/-!
# Strings in memory, byte by byte

`strlen`, `strstr` and `strtok_s` as loops over the bytes of an object in memory. A string is
the part of it up to a NUL, and a read past the end of the object has no result. Where the
object holds a NUL, each loop stops there, and its result is the one that the string alone
determines.
-/

namespace Memlink.CString

/-- `strlen`. -/
def strlen : List UInt8 → Option Nat
  | [] => none
  | c :: mem => if c = 0 then some 0 else (strlen mem).map (· + 1)

/-- Compares a string with the memory, up to the first difference. -/
def startsWith : List UInt8 → List UInt8 → Option Bool
  | [], _ => some true
  | _ :: _, [] => none
  | t :: token, c :: mem => if c = t then startsWith token mem else some false

/-- `strstr(mem, token) != NULL`. -/
def strstr (token : List UInt8) : List UInt8 → Option Bool
  | [] => none
  | c :: mem =>
    match startsWith token (c :: mem) with
    | none => none
    | some true => some true
    | some false => if c = 0 then some false else strstr token mem

/-- The first byte that is not the separator. -/
def skipSep (sep : UInt8) : List UInt8 → Option (List UInt8)
  | [] => none
  | c :: mem => if c = sep then skipSep sep mem else some (c :: mem)

/-- The bytes up to a separator or the NUL, and the memory after the separator or from the NUL
on. -/
def takeToken (sep : UInt8) : List UInt8 → Option (List UInt8 × List UInt8)
  | [] => none
  | c :: mem =>
    if c = 0 then some ([], c :: mem)
    else if c = sep then some ([], mem)
    else (takeToken sep mem).map fun (token, next) ↦ (c :: token, next)

/-- `strtok_s` with a single separator: the token and the memory at `next`, or `NULL`. The NUL
it stores behind the token is before `next`. -/
def strtokS (sep : UInt8) (mem : List UInt8) : Option (Option (List UInt8 × List UInt8)) :=
  match skipSep sep mem with
  | none => none
  | some mem =>
    match takeToken sep mem with
    | none => none
    | some ([], _) => some none
    | some (c :: token, next) => some (some (c :: token, next))

section Text

variable {text : List UInt8} (hnul : 0 ∉ text) (rest : List UInt8)

include hnul

/-- The length of a string. -/
theorem strlen_append : strlen (text ++ 0 :: rest) = some text.length := by
  induction text with
  | nil => rfl
  | cons c text ih =>
    have hc : c ≠ 0 := (List.ne_of_not_mem_cons hnul).symm
    have htext := List.not_mem_of_not_mem_cons hnul
    rw [List.cons_append, strlen, if_neg hc, ih htext]
    rfl

/-- A comparison stops at the NUL at the latest. -/
theorem startsWith_append {token : List UInt8} (htoken : 0 ∉ token) :
    startsWith token (text ++ 0 :: rest) = some (decide (token <+: text)) := by
  induction text generalizing token with
  | nil =>
    cases token with
    | nil => rfl
    | cons t token =>
      rw [List.nil_append, startsWith, if_neg (List.ne_of_not_mem_cons htoken)]
      simp
  | cons c text ih =>
    cases token with
    | nil => rfl
    | cons t token =>
      have htext := List.not_mem_of_not_mem_cons hnul
      have htail := List.not_mem_of_not_mem_cons htoken
      rw [List.cons_append, startsWith, ih htext htail]
      by_cases hc : c = t
      · simp [hc]
      · simp [hc, Ne.symm hc]

/-- A search goes up to the NUL. -/
theorem strstr_append {token : List UInt8} (htoken : 0 ∉ token) :
    strstr token (text ++ 0 :: rest) = some (decide (token <:+: text)) := by
  induction text with
  | nil =>
    rw [List.nil_append, strstr, ← List.nil_append (0 :: rest), startsWith_append hnul rest htoken]
    cases token with
    | nil => rfl
    | cons t token => simp
  | cons c text ih =>
    have hstart := startsWith_append hnul rest htoken
    have hc : c ≠ 0 := (List.ne_of_not_mem_cons hnul).symm
    have htext := List.not_mem_of_not_mem_cons hnul
    rw [List.cons_append] at hstart ⊢
    rw [strstr, hstart]
    by_cases hfound : token <+: c :: text
    · simp [hfound, hfound.isInfix]
    · simp only [hfound, decide_false, if_neg hc, ih htext]
      simp [List.infix_cons_iff, hfound]

/-- Separators are skipped up to the NUL. -/
theorem skipSep_append {sep : UInt8} (hsep : sep ≠ 0) :
    skipSep sep (text ++ 0 :: rest) = some (text.dropWhile (· = sep) ++ 0 :: rest) := by
  induction text with
  | nil => simp [skipSep, hsep.symm]
  | cons c text ih =>
    rw [List.cons_append, skipSep]
    by_cases hc : c = sep
    · simp [hc, ih (List.not_mem_of_not_mem_cons hnul)]
    · simp [hc]

/-- A token ends at the next separator, or at the NUL. -/
theorem takeToken_append {sep : UInt8} :
    takeToken sep (text ++ 0 :: rest) =
      some (text.takeWhile (· ≠ sep), (text.dropWhile (· ≠ sep)).drop 1 ++ 0 :: rest) := by
  induction text with
  | nil => simp [takeToken]
  | cons c text ih =>
    have hc : c ≠ 0 := (List.ne_of_not_mem_cons hnul).symm
    have htext := List.not_mem_of_not_mem_cons hnul
    rw [List.cons_append, takeToken, if_neg hc]
    by_cases hs : c = sep
    · simp [hs]
    · simp [hs, ih htext]

/-- `strtok_s` takes the first part off a string, or finds that it has none. -/
theorem strtokS_cases {sep : UInt8} (hsep : sep ≠ 0) :
    (strtokS sep (text ++ 0 :: rest) = some none ∧ text.parts sep = []) ∨
      ∃ token next, strtokS sep (text ++ 0 :: rest) = some (some (token, next ++ 0 :: rest)) ∧
        text.parts sep = token :: next.parts sep ∧ next.length < text.length ∧
        token ≠ [] ∧ 0 ∉ token ∧ 0 ∉ next := by
  have hskip : 0 ∉ text.dropWhile (· = sep) := fun hmem ↦
    hnul ((List.dropWhile_sublist _).subset hmem)
  have hlen := (List.dropWhile_sublist (fun c ↦ decide (c = sep)) (l := text)).length_le
  unfold strtokS
  rw [skipSep_append hnul rest hsep, ← List.parts_dropWhile]
  dsimp only
  rw [takeToken_append hskip]
  have hhead := List.head?_dropWhile_not (· = sep) text
  generalize text.dropWhile (· = sep) = body at hskip hlen hhead ⊢
  cases body with
  | nil => exact .inl ⟨rfl, rfl⟩
  | cons c body =>
    have hc : c ≠ sep := by simpa using hhead
    have htake : (c :: body).takeWhile (· ≠ sep) = c :: body.takeWhile (· ≠ sep) :=
      List.takeWhile_cons_of_pos (by simpa using hc)
    have hdrop : (c :: body).dropWhile (· ≠ sep) = body.dropWhile (· ≠ sep) :=
      List.dropWhile_cons_of_pos (by simpa using hc)
    have hnext : ((body.dropWhile (· ≠ sep)).drop 1).Sublist body :=
      (List.drop_sublist _ _).trans (List.dropWhile_sublist _)
    rw [htake, hdrop, List.parts_cons_of_ne hc]
    refine .inr ⟨_, _, rfl, rfl, ?_, List.cons_ne_nil _ _, ?_, ?_⟩
    · have hle := hnext.length_le
      rw [List.length_cons] at hlen
      omega
    · intro hmem
      rw [← htake] at hmem
      exact hskip ((List.takeWhile_sublist _).subset hmem)
    · exact fun hmem ↦ hskip (List.mem_cons_of_mem c (hnext.subset hmem))

end Text

section Segment

variable {sep : UInt8} {seg : List UInt8}

/-- Separators before a token are skipped. -/
theorem strtokS_cons_sep (sep : UInt8) (mem : List UInt8) :
    strtokS sep (sep :: mem) = strtokS sep mem := by
  rw [strtokS, skipSep, if_pos rfl, strtokS]

private theorem skipSep_segment (hne : seg ≠ []) (hsep : sep ∉ seg) (rest : List UInt8) :
    skipSep sep (seg ++ rest) = some (seg ++ rest) := by
  cases seg with
  | nil => exact absurd rfl hne
  | cons c seg =>
    have hc : c ≠ sep := (List.ne_of_not_mem_cons hsep).symm
    rw [List.cons_append, skipSep, if_neg hc]

private theorem takeToken_segment (hsep : sep ∉ seg) (hnul : 0 ∉ seg) {rest next : List UInt8}
    (hstop : takeToken sep rest = some ([], next)) :
    takeToken sep (seg ++ rest) = some (seg, next) := by
  induction seg with
  | nil => exact hstop
  | cons c seg ih =>
    have hc : c ≠ sep := (List.ne_of_not_mem_cons hsep).symm
    have hz : c ≠ 0 := (List.ne_of_not_mem_cons hnul).symm
    have hmore := ih (List.not_mem_of_not_mem_cons hsep) (List.not_mem_of_not_mem_cons hnul)
    rw [List.cons_append, takeToken, if_neg hz, if_neg hc, hmore]
    rfl

private theorem strtokS_stop (hne : seg ≠ []) (hsep : sep ∉ seg) (hnul : 0 ∉ seg)
    {rest next : List UInt8} (hstop : takeToken sep rest = some ([], next)) :
    strtokS sep (seg ++ rest) = some (some (seg, next)) := by
  have htoken := takeToken_segment hsep hnul hstop
  rw [strtokS, skipSep_segment hne hsep]
  cases seg with
  | nil => exact absurd rfl hne
  | cons c seg => simp only [htoken]

/-- A token ends at a separator, and the next one is looked for behind it. -/
theorem strtokS_segment (hne : seg ≠ []) (hsep : sep ∉ seg) (hnul : 0 ∉ seg) (hz : sep ≠ 0)
    (rest : List UInt8) : strtokS sep (seg ++ sep :: rest) = some (some (seg, rest)) := by
  apply strtokS_stop hne hsep hnul
  rw [takeToken, if_neg hz, if_pos rfl]

/-- The last token ends at the NUL. -/
theorem strtokS_last (hne : seg ≠ []) (hsep : sep ∉ seg) (hnul : 0 ∉ seg) (rest : List UInt8) :
    strtokS sep (seg ++ 0 :: rest) = some (some (seg, 0 :: rest)) := by
  apply strtokS_stop hne hsep hnul
  rw [takeToken, if_pos rfl]

end Segment

/-- The length of the string in memory with a NUL. -/
theorem strlen_of_mem {mem : List UInt8} (h : 0 ∈ mem) :
    strlen mem = some (ofBuffer mem).length := by
  obtain ⟨text, rest, rfl, hnul⟩ := List.eq_append_cons_of_mem h
  rw [strlen_append hnul, ofBuffer_append_cons hnul]

/-- A search in memory with a NUL. -/
theorem strstr_of_mem {mem token : List UInt8} (h : 0 ∈ mem) (htoken : 0 ∉ token) :
    strstr token mem = some (decide (token <:+: ofBuffer mem)) := by
  obtain ⟨text, rest, rfl, hnul⟩ := List.eq_append_cons_of_mem h
  rw [strstr_append hnul rest htoken, ofBuffer_append_cons hnul]

/-! ### Progress -/

private theorem skipSep_length_le {sep : UInt8} {mem body : List UInt8}
    (h : skipSep sep mem = some body) : body.length ≤ mem.length := by
  induction mem with
  | nil => cases h
  | cons c mem ih =>
    rw [skipSep] at h
    split at h
    · exact Nat.le_succ_of_le (ih h)
    · obtain rfl := Option.some.inj h
      exact Nat.le_refl _

private theorem takeToken_length_le {sep : UInt8} {mem token next : List UInt8}
    (h : takeToken sep mem = some (token, next)) : token.length + next.length ≤ mem.length := by
  induction mem generalizing token with
  | nil => cases h
  | cons c mem ih =>
    rw [takeToken] at h
    split at h
    · cases h
      simp
    · split at h
      · cases h
        simp
      · obtain ⟨⟨token', next'⟩, hmore, heq⟩ := Option.map_eq_some_iff.mp h
        cases heq
        have hle := ih hmore
        simp only [List.length_cons]
        omega

/-- A token leaves less memory to read. -/
theorem strtokS_length_lt {sep : UInt8} {mem token next : List UInt8}
    (h : strtokS sep mem = some (some (token, next))) : next.length < mem.length := by
  unfold strtokS at h
  split at h
  · cases h
  · next body hskip =>
    split at h
    · cases h
    · cases h
    · next c text after htake =>
      cases h
      have hle := takeToken_length_le htake
      have hbody := skipSep_length_le hskip
      rw [List.length_cons] at hle
      omega

end Memlink.CString
