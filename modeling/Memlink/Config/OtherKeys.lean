import Memlink.Config.Printed

/-!
# Setting one key and reading another

Whether a lookup of another key is the same before and after `SetValueToCfg`. Lines that
contain the key that is set anywhere are printed again with what `sscanf_s` made of them
(`memlink_driver.c:426–436`): a well-formed number comes out as itself, anything else as the
number it begins with or as the one an earlier line left in `tmpValue`. That one may still happen
to be the number that the lookup returned before.
-/

namespace Memlink

open CString

/-! ### Well-formed numbers -/

/-- What `TrimNewLine` removes is at the end. -/
theorem exists_trimmed (p : List UInt8) :
    ∃ w, p = trimNewLine p ++ w ∧ ∀ c ∈ w, isTrimmed c = true := by
  cases p with
  | nil => exact ⟨[], rfl, by simp⟩
  | cons c s =>
    refine ⟨(s.reverse.takeWhile isTrimmed).reverse, ?_, ?_⟩
    · have hsplit := congrArg List.reverse
        (List.takeWhile_append_dropWhile (p := isTrimmed) (l := s.reverse))
      rw [List.reverse_append, List.reverse_reverse] at hsplit
      change c :: s = c :: ((s.reverse.dropWhile isTrimmed).reverse ++ _)
      rw [hsplit]
    · intro d hd
      exact List.mem_takeWhile_imp (List.mem_reverse.mp hd)

private theorem sign_append {body rest : List UInt8} {negative : Bool}
    (h : sign body = (negative, rest)) (hne : body ≠ []) (w : List UInt8) :
    sign (body ++ w) = (negative, rest ++ w) := by
  obtain ⟨c, body, rfl⟩ := List.exists_cons_of_ne_nil hne
  rw [List.cons_append]
  rw [sign] at h ⊢
  split at h
  · next hc =>
    obtain ⟨rfl, rfl⟩ := Prod.mk.inj h
    rw [if_pos hc]
  · next hc =>
    split at h
    · next hplus =>
      obtain ⟨rfl, rfl⟩ := Prod.mk.inj h
      rw [if_neg hc, if_pos hplus]
    · next hplus =>
      obtain ⟨rfl, rfl⟩ := Prod.mk.inj h
      rw [if_neg hc, if_neg hplus]
      rfl

/-- `%d` reads a well-formed number. -/
theorem scanInt_of_checkAllDigits {p : List UInt8} (h : checkAllDigits (trimNewLine p) = true) :
    scanInt p = some (textValue (trimNewLine p)) := by
  obtain ⟨w, hsplit, hw⟩ := exists_trimmed p
  obtain ⟨negative, digits, hsign, hspace, hne, hall⟩ := checkAllDigits_cases h
  have hbody : (trimNewLine p).dropWhile isSpace ≠ [] := by
    intro hnil
    rw [← hspace, hnil] at hsign
    exact hne (Prod.mk.inj hsign).2.symm
  have hdrop : p.dropWhile isSpace = (trimNewLine p).dropWhile isSpace ++ w := by
    rw [hsplit, List.dropWhile_append, ← hsplit]
    simp [hbody]
  have hdigits : (digits ++ w).takeWhile isDigit = digits := by
    rw [List.takeWhile_append_of_pos hall]
    cases w with
    | nil => simp
    | cons c w =>
      have hc : isDigit c = false := by
        have := hw c List.mem_cons_self
        simp only [isTrimmed, Bool.or_eq_true, decide_eq_true_eq] at this
        rcases this with (rfl | rfl) | rfl <;> decide
      rw [List.takeWhile_cons_of_neg (by simp [hc]), List.append_nil]
  unfold scanInt textValue
  rw [hdrop, sign_append (by rw [hspace, hsign]) hbody, hsign]
  dsimp only
  rw [hdigits, if_neg hne]

/-- Printing does not lengthen a well-formed number. -/
theorem length_printInt_textValue_le {u : List UInt8} (h : checkAllDigits u = true) :
    (printInt (textValue u)).length ≤ u.length := by
  obtain ⟨negative, digits, hsign, -, hne, hall⟩ := checkAllDigits_cases h
  have hshort := length_printNat_decimal_le hne hall
  have hbody : (u.dropWhile (· = ' '.toUInt8)).length ≤ u.length :=
    (List.dropWhile_suffix _).length_le
  have hlong : digits.length + (if negative then 1 else 0) ≤
      (u.dropWhile (· = ' '.toUInt8)).length := by
    generalize u.dropWhile (· = ' '.toUInt8) = body at hsign
    cases body with
    | nil => exact absurd (Prod.mk.inj hsign).2.symm hne
    | cons c body =>
      rw [sign] at hsign
      split at hsign
      · obtain ⟨rfl, rfl⟩ := Prod.mk.inj hsign
        simp
      · split at hsign
        · obtain ⟨rfl, rfl⟩ := Prod.mk.inj hsign
          simp
        · obtain ⟨rfl, rfl⟩ := Prod.mk.inj hsign
          simp
  unfold textValue printInt
  rw [hsign]
  dsimp only
  cases negative with
  | true =>
    simp only [if_true, Int.natAbs_neg, Int.natAbs_natCast] at hlong ⊢
    split
    · rw [List.length_cons]
      omega
    · omega
  | false =>
    simp only [Bool.false_eq_true, if_false, Int.natAbs_natCast] at hlong ⊢
    rw [if_neg (by omega)]
    omega

/-! ### Other keys -/

/-- The letters, digits and the underscore. -/
def isWordChar (c : UInt8) : Bool :=
  isDigit c || ('a'.toUInt8 ≤ c && c ≤ 'z'.toUInt8) || ('A'.toUInt8 ≤ c && c ≤ 'Z'.toUInt8) ||
    c = '_'.toUInt8

/-- Keys are non-empty words. -/
def IsKey (key : List UInt8) : Prop := key ≠ [] ∧ ∀ c ∈ key, isWordChar c = true

instance (key : List UInt8) : Decidable (IsKey key) :=
  inferInstanceAs (Decidable (key ≠ [] ∧ ∀ c ∈ key, isWordChar c = true))

/-- Every line is shorter than 1023 bytes. -/
def ShortLines (content : List UInt8) : Prop :=
  ∀ line ∈ content.splitOn '\n'.toUInt8, line.length < 1023

instance (content : List UInt8) : Decidable (ShortLines content) :=
  inferInstanceAs (Decidable (∀ line ∈ content.splitOn '\n'.toUInt8, line.length < 1023))

/-- Every buffer that a lookup reads, the one at which it stops included, satisfies `P`. -/
def Examines (key content : List UInt8) (P : List UInt8 → Prop) : Prop :=
  ∀ pre buf post, fgetsLines lineMaxChar content = pre ++ buf :: post →
    (∀ b ∈ pre, supplied key b = none) → P buf

/-- What a lookup that finds a number returns, with `errno` clear. -/
def delivered (x : Int) : Int32 := (narrowLong cfgopenOrMemsetError x false).1

/-- The number on a line is printed as one for which a lookup returns the same: it fits into an
`int`, or `sscanf_s` stores for it what a lookup returns and there is room for that. -/
def Reproduces (scan : Sscanf) (line : List UInt8) : Prop :=
  ∃ x, lineNumber line = some x ∧ (InInt x ∨ scan.value x = delivered x ∧
    (line.takeWhile (· ≠ '='.toUInt8)).length ≤ 1011)

/-- A buffer on which setting `key` does not disturb a lookup of `other`: it is written uncut,
and if it is printed with a number behind `other`, then with the one that it has. -/
def KeptFor (scan : Sscanf) (key other buf : List UInt8) : Prop :=
  Uncut key buf ∧ (PrintsNumber key other (ofBuffer buf) → Reproduces scan (ofBuffer buf))

/-- A buffer that is written uncut, and with room for a number if one is printed behind `other`. -/
def RoomFor (key other buf : List UInt8) : Prop :=
  Uncut key buf ∧ (PrintsNumber key other (ofBuffer buf) →
    ((ofBuffer buf).takeWhile (· ≠ '='.toUInt8)).length ≤ 1011)

/-- The first buffer that a lookup of `other` reads and setting `key` disturbs: one that is
printed with another number than it has, with room for it. -/
structure Disturbed (scan : Sscanf) (key other content : List UInt8) (pre : List (List UInt8))
    (buf : List UInt8) (post : List (List UInt8)) : Prop where
  buffers : fgetsLines lineMaxChar content = pre ++ buf :: post
  passed : ∀ b ∈ pre, KeptFor scan key other b ∧ supplied other b = none
  prints : PrintsNumber key other (ofBuffer buf)
  changed : ¬ Reproduces scan (ofBuffer buf)
  room : ((ofBuffer buf).takeWhile (· ≠ '='.toUInt8)).length ≤ 1011

/-- The number that a line leaves for the next ones: the value that is set if the line has the
very key, the one that `%d` reads of it, or else the number left by earlier lines. -/
def numberAfter (scan : Sscanf) (key : List UInt8) (v y : Int32) (line : List UInt8) : Int32 :=
  if IsRewritten key line then
    if line.takeWhile (· ≠ '='.toUInt8) = key then v
    else if line.takeWhile (· ≠ '='.toUInt8) = [] then y
    else
      match (afterEquals line).bind scanInt with
      | some x => scan.value x
      | none => y
  else y

/-- The number that some buffers leave, from 0 on. -/
def leftNumber (scan : Sscanf) (key : List UInt8) (v : Int32) (bufs : List (List UInt8)) : Int32 :=
  bufs.foldl (fun y buf ↦ numberAfter scan key v y (ofBuffer buf)) 0

/-- On the first disturbed buffer the number left there happens to be the one that the lookup
returned before. -/
def Coincides (scan : Sscanf) (key other : List UInt8) (v : Int32) (content : List UInt8) : Prop :=
  ∃ pre buf post, Disturbed scan key other content pre buf post ∧
    (getIntegerValueFromCfg ⟨some content, true, true⟩ other false).1 =
      leftNumber scan key v (pre ++ [buf])

/-- What a lookup reads after a buffer that supplies nothing. -/
theorem Examines.tail {key buf rest : List UInt8} {P : List UInt8 → Prop}
    (h : Examines key (buf ++ rest) P) (hfills : Fills (lineMaxChar - 1) buf rest)
    (hnone : supplied key buf = none) : Examines key rest P := by
  intro pre b post hbufs hpassed
  refine h (buf :: pre) b post ?_ ?_
  · rw [fgetsLines_append hfills, hbufs, List.cons_append]
  · intro c hc
    rcases List.mem_cons.mp hc with rfl | hc
    · exact hnone
    · exact hpassed c hc

/-- Buffers that are not all as they should be: the first one that is not. -/
theorem Examines.exists_first {key content : List UInt8} {P : List UInt8 → Prop}
    (h : ¬ Examines key content P) :
    ∃ pre buf post, fgetsLines lineMaxChar content = pre ++ buf :: post ∧
      (∀ b ∈ pre, P b ∧ supplied key b = none) ∧ ¬ P buf := by
  classical
  unfold Examines at h
  push Not at h
  obtain ⟨pre, buf, post, hbufs, hnone, hbuf⟩ := h
  by_cases hpre : ∀ b ∈ pre, P b
  · exact ⟨pre, buf, post, hbufs, fun b hb ↦ ⟨hpre b hb, hnone b hb⟩, hbuf⟩
  · obtain ⟨first, hfirst⟩ : ∃ first, pre.find? (fun b ↦ decide (¬ P b)) = some first := by
      apply Option.isSome_iff_exists.mp
      rw [List.find?_isSome]
      simpa using hpre
    obtain ⟨hnot, before, after, rfl, hpassed⟩ := List.find?_eq_some_iff_append.mp hfirst
    refine ⟨before, first, after ++ buf :: post, ?_, fun b hb ↦ ⟨?_, ?_⟩, by simpa using hnot⟩
    · rw [hbufs, List.append_assoc, List.cons_append]
    · simpa using hpassed b hb
    · exact hnone b (List.mem_append_left _ hb)

/-- What a lookup returns, by the number that it finds. -/
theorem getIntegerValueFromCfg_fst (key content : List UInt8) :
    (getIntegerValueFromCfg ⟨some content, true, true⟩ key false).1 =
      ((firstNumber key content).map delivered).getD (-1) := by
  rw [getIntegerValueFromCfg_eq rfl rfl]
  cases firstNumber key content <;> rfl

/-- Lookups that deliver the same with `errno` clear do so with any `errno`. -/
theorem getIntegerValueFromCfg_congr {key content content' : List UInt8}
    (h : (firstNumber key content).map delivered = (firstNumber key content').map delivered)
    (errno : Bool) :
    (getIntegerValueFromCfg ⟨some content, true, true⟩ key errno).1 =
      (getIntegerValueFromCfg ⟨some content', true, true⟩ key errno).1 := by
  cases errno with
  | false => rw [getIntegerValueFromCfg_fst, getIntegerValueFromCfg_fst, h]
  | true =>
    -- Every number is delivered as the error code.
    have herr : ∀ x : Int, (narrowLong cfgopenOrMemsetError x true).1 = cfgopenOrMemsetError := by
      intro x
      simp [narrowLong]
    rw [getIntegerValueFromCfg_eq rfl rfl, getIntegerValueFromCfg_eq rfl rfl]
    have hsome := congrArg Option.isSome h
    rw [Option.isSome_map, Option.isSome_map] at hsome
    generalize firstNumber key content = o at hsome
    generalize firstNumber key content' = o' at hsome
    cases o with
    | none =>
      cases o' with
      | none => rfl
      | some y => cases hsome
    | some x =>
      cases o' with
      | none => cases hsome
      | some y => exact (herr x).trans (herr y).symm

/-- An `int` is delivered as itself. -/
theorem delivered_toInt (y : Int32) : delivered y.toInt = y := by
  have hint : InInt y.toInt := ⟨y.minValue_le_toInt, y.toInt_le⟩
  unfold delivered narrowLong
  rw [if_pos ⟨hint.inLong, rfl⟩, Int32.ofInt_toInt]

section Other

variable (scan : Sscanf) {key other : List UInt8} (v : Int32)

/-- A line with a number, taken apart: `%d` reads that number. -/
theorem scanLine_number {s s' : CopyState} {line : List UInt8} {x : Int}
    (htext : line.takeWhile (· ≠ '='.toUInt8) ≠ []) (hx : lineNumber line = some x)
    (hscan : scanLine scan s line = some s') :
    s' = ⟨line.takeWhile (· ≠ '='.toUInt8), scan.value x⟩ := by
  rcases scanLine_cases hscan with ⟨hnil, -⟩ | ⟨-, rfl⟩
  · exact absurd hnil htext
  · unfold lineNumber at hx
    cases hafter : afterEquals line with
    | none =>
      rw [hafter] at hx
      cases hx
    | some p =>
      rw [hafter] at hx
      dsimp only at hx
      split at hx
      · next hcheck =>
        rw [Option.bind_some, scanInt_of_checkAllDigits hcheck, Option.some.inj hx]
      · cases hx

/-- A number that stands on a line has room there when it is printed. -/
theorem length_printInt_of_lineNumber {line rest : List UInt8}
    (hfills : Fills (lineMaxChar - 1) line rest) {x : Int} (hx : lineNumber line = some x) :
    (line.takeWhile (· ≠ '='.toUInt8)).length + (printInt x).length < lineMaxChar - 1 := by
  rcases equals_cases line with ⟨-, -, hnone⟩ | ⟨t, p, rfl, hno, htext, hafter⟩
  · rw [lineNumber, hnone] at hx
    cases hx
  · rw [lineNumber, hafter] at hx
    dsimp only at hx
    split at hx
    · next hcheck =>
      have hlen := hfills.length_le
      rw [List.length_append, List.length_cons] at hlen
      have hshort := length_printInt_textValue_le hcheck
      rw [Option.some.inj hx] at hshort
      obtain ⟨w, hw, -⟩ := exists_trimmed p
      have htrim := congrArg List.length hw
      rw [List.length_append] at htrim
      rw [htext]
      omega
    · cases hx

/-- A line that is printed with the number it has: a lookup delivers the same on it. -/
theorem firstNumber_reprinted (hne : other ≠ []) (hequals : '='.toUInt8 ∉ other)
    {s s' : CopyState} {line rest : List UInt8} (hfills : Fills (lineMaxChar - 1) line rest)
    (hnul : 0 ∉ line) (hprints : PrintsNumber key other line) (hkept : Reproduces scan line)
    (hscan : scanLine scan s line = some s') :
    s'.tmpkey = line.takeWhile (· ≠ '='.toUInt8) ∧
      (firstNumber other (printLine s')).map delivered = (lineNumber line).map delivered := by
  obtain ⟨x, hx, hvalue⟩ := hkept
  obtain ⟨hstart, hnl⟩ := hprints.text hne hequals hfills
  have htext : line.takeWhile (· ≠ '='.toUInt8) ≠ [] := fun hnil ↦
    hne (List.prefix_nil.mp (hnil ▸ hstart))
  obtain rfl := scanLine_number scan htext hx hscan
  refine ⟨rfl, ?_⟩
  have hroom : (line.takeWhile (· ≠ '='.toUInt8)).length +
        (printInt (scan.value x).toInt).length < lineMaxChar - 1 ∧
      scan.value x = delivered x := by
    rcases hvalue with hint | ⟨hvalue, hlen⟩
    · have hstored : scan.value x = Int32.ofInt x := if_pos hint
      have hback : delivered x = Int32.ofInt x := by
        unfold delivered narrowLong
        rw [if_pos ⟨hint.inLong, rfl⟩]
      rw [hstored, hback, toInt_ofInt_of_inInt hint]
      exact ⟨length_printInt_of_lineNumber hfills hx, rfl⟩
    · have hshort := length_printInt_le (scan.value x)
      refine ⟨?_, hvalue⟩
      change _ < 1023
      omega
  have hfound := firstNumber_printLine
    (s := ⟨line.takeWhile (· ≠ '='.toUInt8), scan.value x⟩) hstart
    (fun hmem ↦ absurd (List.mem_takeWhile_imp hmem) (by simp)) hnl
    (fun hmem ↦ hnul (List.takeWhile_subset _ hmem)) hroom.1
  rw [hfound, hx, Option.map_some, Option.map_some, delivered_toInt, hroom.2]

/-- A buffer that supplies a number begins with the key and has an `'='`. -/
theorem begins_of_supplied {buf : List UInt8} {x : Int} (h : supplied other buf = some x) :
    other <+: ofBuffer buf ∧ '='.toUInt8 ∈ ofBuffer buf ∧ lineNumber (ofBuffer buf) = some x := by
  unfold supplied at h
  split at h
  · next hbegins =>
    refine ⟨List.isPrefixOf_iff_prefix.mp hbegins, ?_, h⟩
    rcases equals_cases (ofBuffer buf) with ⟨-, -, hafter⟩ | ⟨t, p, hsplit, -⟩
    · rw [lineNumber, hafter] at h
      cases h
    · rw [hsplit]
      exact List.mem_append_right _ List.mem_cons_self
  · cases h

/-- A kept buffer that supplies nothing is not printed with a number. -/
theorem KeptFor.not_printsNumber {buf : List UInt8} (h : KeptFor scan key other buf)
    (hnone : supplied other buf = none) : ¬ PrintsNumber key other (ofBuffer buf) := by
  intro hprints
  obtain ⟨x, hx, -⟩ := h.2 hprints
  unfold supplied at hnone
  rw [if_pos (List.isPrefixOf_iff_prefix.mpr hprints.begins), hx] at hnone
  cases hnone

/-- A lookup of another key delivers the same from the rewritten file. -/
theorem firstNumber_rewriteLines_other (hkey : key ≠ []) (hne : other ≠ [])
    (hequals : '='.toUInt8 ∉ other) (hother : ¬ other <+: key) {content : List UInt8}
    (h : Examines other content (KeptFor scan key other)) {s : CopyState}
    (hs : Silent other s.tmpkey) :
    (firstNumber other (rewriteLines scan key v s (fgetsLines lineMaxChar content))).map delivered =
      (firstNumber other content).map delivered := by
  induction content using fgets_induction (n := lineMaxChar - 1) (by decide) generalizing s with
  | nil => rfl
  | fills buf rest hfills ih =>
    have hkept := h [] buf _ (fgetsLines_append hfills) (by simp)
    rw [fgetsLines_append hfills, firstNumber_append hfills]
    cases hsupplied : supplied other buf with
    | none =>
      obtain ⟨hs', hnext⟩ := rewriteLines_silent scan v hkey hne hequals hs hfills hkept.1
        (hkept.not_printsNumber scan hsupplied) hsupplied
      rw [hnext, ih (h.tail hfills hsupplied) hs']
      rfl
    | some x =>
      by_cases hrewritten : IsRewritten key (ofBuffer buf)
      · obtain ⟨hbegins, hmem, hx⟩ := begins_of_supplied hsupplied
        have hprints : PrintsNumber key other (ofBuffer buf) :=
          ⟨hrewritten, hbegins, .inr (.inl hmem)⟩
        have hline := hfills.ofBuffer (List.ne_nil_of_mem hmem)
        obtain ⟨s', hs'⟩ := scanLine_ne_none scan s hline.ne_nil
        obtain ⟨htext, hfound⟩ := firstNumber_reprinted scan hne hequals hline
          (zero_notMem_ofBuffer buf) hprints (hkept.2 hprints) hs'
        have hnot : s'.tmpkey ≠ key := by
          intro heq
          rw [← heq, htext] at hother
          exact hother (hprints.text hne hequals hline).1
        rw [hx, Option.map_some] at hfound
        obtain ⟨y, hy, hxy⟩ := Option.map_eq_some_iff.mp hfound
        rw [rewriteLines_taken scan v hrewritten hs', copyState_taken scan v hrewritten hs',
          if_neg hnot, hy, Option.some_or, Option.some_or, Option.map_some,
          Option.map_some, hxy]
      · rw [rewriteLines_copied scan v hfills hkept.1 hrewritten s, hsupplied]
        rfl

/-- The number in the variables after some buffers is the one that they leave. -/
theorem copyState_tmpValue (hkey : key ≠ []) (bufs : List (List UInt8)) {s : CopyState}
    (hs : s.tmpkey = key → s.tmpValue = v) :
    (copyState scan key v s bufs).tmpValue =
      bufs.foldl (fun y buf ↦ numberAfter scan key v y (ofBuffer buf)) s.tmpValue := by
  induction bufs generalizing s with
  | nil => rfl
  | cons buf bufs ih =>
    have hsplit : copyState scan key v s (buf :: bufs) =
        copyState scan key v (copyState scan key v s [buf]) bufs := rfl
    rw [hsplit, List.foldl_cons]
    by_cases hrewritten : IsRewritten key (ofBuffer buf)
    · have hline : ofBuffer buf ≠ [] := fun hempty ↦
        hkey (List.eq_nil_of_infix_nil (hempty ▸ hrewritten.2.2))
      obtain ⟨s', hs'⟩ := scanLine_ne_none scan s hline
      have hstate := copyState_taken scan v hrewritten hs'
      have hvalue : (copyState scan key v s [buf]).tmpValue =
          numberAfter scan key v s.tmpValue (ofBuffer buf) := by
        rw [hstate, numberAfter, if_pos hrewritten]
        rcases scanLine_cases hs' with ⟨hnil, rfl⟩ | ⟨htext, rfl⟩
        · rw [hnil, if_neg hkey.symm, if_pos rfl]
          split
          · next heq =>
            -- `tmpkey` is still the key of an earlier line.
            rcases scan.noMatch_cases s.tmpkey with hold | hcleared
            · exact (hs (hold.symm.trans heq)).symm
            · exact absurd (hcleared.symm.trans heq) hkey.symm
          · rfl
        · dsimp only
          by_cases heq : (ofBuffer buf).takeWhile (· ≠ '='.toUInt8) = key
          · rw [if_pos heq, if_pos heq]
          · rw [if_neg heq, if_neg heq, if_neg htext]
            cases (afterEquals (ofBuffer buf)).bind scanInt with
            | none => rfl
            | some x => rfl
      rw [← hvalue]
      apply ih
      intro heq
      rw [hstate] at heq ⊢
      split at heq
      · next hkeyed => rw [if_pos hkeyed]
      · next hkeyed => exact absurd heq hkeyed
    · have hstate : copyState scan key v s [buf] = s := by
        unfold copyState
        simp only [List.foldl_cons, List.foldl_nil, copyLine_of_not_isRewritten _ hrewritten,
          Option.map_some, Option.getD_some]
      have hvalue : numberAfter scan key v s.tmpValue (ofBuffer buf) = s.tmpValue :=
        if_neg hrewritten
      rw [hstate, hvalue]
      exact ih hs

/-- On the first disturbed buffer the lookup finds the number in the variables afterwards. -/
theorem Disturbed.firstNumber_eq (hkey : key ≠ []) (hne : other ≠ [])
    (hequals : '='.toUInt8 ∉ other) {content buf : List UInt8} {pre post : List (List UInt8)}
    (h : Disturbed scan key other content pre buf post) {s : CopyState}
    (hs : Silent other s.tmpkey) :
    firstNumber other (rewriteLines scan key v s (fgetsLines lineMaxChar content)) =
      some (copyState scan key v s (pre ++ [buf])).tmpValue.toInt := by
  induction content using fgets_induction (n := lineMaxChar - 1) (by decide) generalizing pre s with
  | nil => exact absurd h.buffers (by simp [fgetsLines, fgetsFrom])
  | fills first rest hfills ih =>
    have hbufs := h.buffers
    rw [fgetsLines_append hfills] at hbufs ⊢
    cases pre with
    | nil =>
      obtain ⟨rfl, rfl⟩ := List.cons.inj hbufs
      exact (rewriteLines_printsNumber scan v hne hequals s hfills h.prints h.room _).2
    | cons b pre =>
      obtain ⟨rfl, htail⟩ := List.cons.inj hbufs
      obtain ⟨hkept, hnone⟩ := h.passed first List.mem_cons_self
      obtain ⟨hs', hnext⟩ := rewriteLines_silent scan v hkey hne hequals hs hfills hkept.1
        (hkept.not_printsNumber scan hnone) hnone
      rw [hnext]
      exact ih ⟨htail, fun b hb ↦ h.passed b (List.mem_cons_of_mem _ hb), h.prints, h.changed,
        h.room⟩ hs'

/-- After a value was set, a lookup returns the number that was left on the first disturbed
buffer. -/
theorem Disturbed.lookup_eq (hkey : IsKey key) (hother : IsKey other) {content buf : List UInt8}
    {pre post : List (List UInt8)} (h : Disturbed scan key other content pre buf post)
    (flushed : Nat) :
    (getIntegerValueFromCfg ⟨some (setValueToCfg scan .ok flushed key v content), true, true⟩
      other false).1 = leftNumber scan key v (pre ++ [buf]) := by
  have hequals : '='.toUInt8 ∉ other := fun hmem ↦ absurd (hother.2 _ hmem) (by decide)
  have hfound := h.firstNumber_eq scan v hkey.1 hother.1 hequals (s := .initial)
    (Silent.nil hother.1)
  rw [setValueToCfg_ok scan v fun _ _ _ ↦ hkey.1, getIntegerValueFromCfg_fst]
  unfold rewritten leftNumber
  rw [hfound, Option.map_some, Option.getD_some, delivered_toInt,
    copyState_tmpValue scan v hkey.1 _ fun heq ↦ absurd heq.symm hkey.1]
  rfl

/-- When setting one key leaves another alone: for every content of the file, all keys of which
the other is not the start of the one that is set and every value, a lookup of the other returns
the same before and after if setting the key disturbs none of the buffers that this lookup reads.
Where those are written uncut and have room for the numbers that are printed on them, it returns
the same only then, or if the number left on the first disturbed one happens to be the same. -/
theorem setValueToCfg_keeps_other (hkey : IsKey key) (hother : IsKey other)
    (hstart : ¬ other <+: key) (content : List UInt8) (flushed : Nat) :
    (Examines other content (KeptFor scan key other) → ∀ errno : Bool,
      (getIntegerValueFromCfg ⟨some (setValueToCfg scan .ok flushed key v content), true, true⟩
          other errno).1 =
        (getIntegerValueFromCfg ⟨some content, true, true⟩ other errno).1) ∧
    (Examines other content (RoomFor key other) →
      ((getIntegerValueFromCfg ⟨some (setValueToCfg scan .ok flushed key v content), true, true⟩
          other false).1 =
        (getIntegerValueFromCfg ⟨some content, true, true⟩ other false).1 ↔
      Examines other content (KeptFor scan key other) ∨ Coincides scan key other v content)) := by
  have hequals : '='.toUInt8 ∉ other := fun hmem ↦ absurd (hother.2 _ hmem) (by decide)
  have hkeeps : Examines other content (KeptFor scan key other) → ∀ errno : Bool,
      (getIntegerValueFromCfg ⟨some (setValueToCfg scan .ok flushed key v content), true, true⟩
          other errno).1 =
        (getIntegerValueFromCfg ⟨some content, true, true⟩ other errno).1 := by
    intro h errno
    rw [setValueToCfg_ok scan v fun _ _ _ ↦ hkey.1]
    exact getIntegerValueFromCfg_congr (firstNumber_rewriteLines_other scan v hkey.1 hother.1
      hequals hstart h (s := .initial) (Silent.nil hother.1)) errno
  refine ⟨hkeeps, fun hroom ↦ ⟨fun hsame ↦ ?_, ?_⟩⟩
  · by_cases hall : Examines other content (KeptFor scan key other)
    · exact .inl hall
    · obtain ⟨pre, buf, post, hbufs, hpassed, hnot⟩ := Examines.exists_first hall
      obtain ⟨huncut, hlen⟩ := hroom pre buf post hbufs fun b hb ↦ (hpassed b hb).2
      have hprints : PrintsNumber key other (ofBuffer buf) := by
        by_contra hsilent
        exact hnot ⟨huncut, fun hprints ↦ absurd hprints hsilent⟩
      have hdisturbed : Disturbed scan key other content pre buf post :=
        ⟨hbufs, hpassed, hprints, fun hrep ↦ hnot ⟨huncut, fun _ ↦ hrep⟩, hlen hprints⟩
      exact .inr ⟨pre, buf, post, hdisturbed,
        hsame.symm.trans (hdisturbed.lookup_eq scan v hkey hother flushed)⟩
  · rintro (hall | ⟨pre, buf, post, hdisturbed, hleft⟩)
    · exact hkeeps hall false
    · rw [hdisturbed.lookup_eq scan v hkey hother flushed, hleft]

end Other

/-- A file in which a second line contains the key of the first. -/
def carriedFile (second : String) : List UInt8 :=
  bytes "balloon_enable=0\n" ++ bytes second

/-- A second line with a number keeps it. -/
theorem setValueToCfg_keeps_number :
    (getIntegerValueFromCfg ⟨some (setValueToCfg plainSscanf .ok 0 (bytes "balloon_enable") 1
      (carriedFile "old_balloon_enable=7\n")), true, true⟩
      (bytes "old_balloon_enable") false).1 = 7 := by
  have hkey : IsKey (bytes "balloon_enable") := by decide +kernel
  have hother : IsKey (bytes "old_balloon_enable") := by decide +kernel
  have hexamines : Examines (bytes "old_balloon_enable") (carriedFile "old_balloon_enable=7\n")
      (KeptFor plainSscanf (bytes "balloon_enable") (bytes "old_balloon_enable")) := by
    intro pre buf post hbufs _
    have hlines : fgetsLines lineMaxChar (carriedFile "old_balloon_enable=7\n") =
        [bytes "balloon_enable=0\n", bytes "old_balloon_enable=7\n"] := by decide +kernel
    have hmem : buf ∈ [bytes "balloon_enable=0\n", bytes "old_balloon_enable=7\n"] := by
      rw [← hlines, hbufs]
      simp
    rcases List.mem_cons.mp hmem with rfl | hmem
    · exact ⟨.inr (.inl (by decide +kernel)), fun _ ↦ ⟨0, by decide +kernel, .inl (by decide)⟩⟩
    · rw [List.mem_singleton.mp hmem]
      exact ⟨.inr (.inl (by decide +kernel)), fun _ ↦ ⟨7, by decide +kernel, .inl (by decide)⟩⟩
  rw [(setValueToCfg_keeps_other plainSscanf 1 hkey hother (by decide +kernel) _ 0).1 hexamines]
  decide +kernel

/-- A second line without a number gets the value that was set on the first. -/
theorem carried_value :
    ¬ ∀ (scan : Sscanf) (key other content : List UInt8) (v : Int32), ShortLines content →
      IsKey key → IsKey other → ¬ other <+: key →
      (getIntegerValueFromCfg ⟨some (setValueToCfg scan .ok 0 key v content), true, true⟩
          other false).1 =
        (getIntegerValueFromCfg ⟨some content, true, true⟩ other false).1 := by
  intro h
  have hsame := h plainSscanf (bytes "balloon_enable") (bytes "old_balloon_enable")
    (carriedFile "old_balloon_enable=auto\n") 1 (by decide +kernel) (by decide +kernel)
    (by decide +kernel) (by decide +kernel)
  revert hsame
  decide +kernel

end Memlink
