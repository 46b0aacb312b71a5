import Mathlib.Data.List.DropRight
import Memlink.Base.LineInput
import Memlink.Base.Segments
import Memlink.Config.Rewrite

/-!
# What printed lines supply

`CopyToFile` prints `tmpkey=tmpValue` (`memlink_driver.c:434`), and a later lookup reads the
line back through `fgets`, `TrimNewLine`, `CheckAllDigits` and `strtol`. A key in front of the
`'='` makes the printed number the one a lookup finds; other texts supply nothing, however the
line is cut into buffers.
-/

namespace Memlink

open CString

/-! ### Printed numbers -/

/-- Digits are accepted as they are. -/
theorem checkAllDigits_digits {ds : List UInt8} (hne : ds ≠ [])
    (hall : ∀ c ∈ ds, isDigit c = true) :
    checkAllDigits ds = true ∧ textValue ds = decimal ds := by
  obtain ⟨d, ds, rfl⟩ := List.exists_cons_of_ne_nil hne
  have hd := hall d List.mem_cons_self
  have hspace : d ≠ ' '.toUInt8 := fun he ↦ absurd (he ▸ hd) (by decide)
  have hminus : d ≠ '-'.toUInt8 := fun he ↦ absurd (he ▸ hd) (by decide)
  have hplus : d ≠ '+'.toUInt8 := fun he ↦ absurd (he ▸ hd) (by decide)
  have hdrop : (d :: ds).dropWhile (· = ' '.toUInt8) = d :: ds :=
    List.dropWhile_cons_of_neg (by simpa using hspace)
  constructor
  · unfold checkAllDigits
    rw [hdrop]
    dsimp only
    rw [if_neg hminus, List.all_eq_true]
    exact hall
  · unfold textValue
    rw [hdrop, sign, if_neg hminus, if_neg hplus]
    rfl

/-- So are digits after a minus sign. -/
theorem checkAllDigits_minus {ds : List UInt8} (hne : ds ≠ [])
    (hall : ∀ c ∈ ds, isDigit c = true) :
    checkAllDigits ('-'.toUInt8 :: ds) = true ∧ textValue ('-'.toUInt8 :: ds) = -decimal ds := by
  have hdrop : ('-'.toUInt8 :: ds).dropWhile (· = ' '.toUInt8) = '-'.toUInt8 :: ds :=
    List.dropWhile_cons_of_neg (by decide)
  obtain ⟨d, ds, rfl⟩ := List.exists_cons_of_ne_nil hne
  constructor
  · unfold checkAllDigits
    rw [hdrop]
    dsimp only
    rw [if_pos rfl, Bool.and_eq_true, List.all_eq_true]
    exact ⟨hall d List.mem_cons_self, hall⟩
  · unfold textValue
    rw [hdrop, sign, if_pos rfl]
    rfl

/-- A printed integer reads as itself. -/
theorem checkAllDigits_printInt (x : Int) :
    checkAllDigits (printInt x) = true ∧ textValue (printInt x) = x := by
  have hdigits : ∀ c ∈ printNat x.natAbs, isDigit c = true := fun c ↦ isDigit_of_mem_printNat
  unfold printInt
  split
  · next hneg =>
    obtain ⟨hcheck, hvalue⟩ := checkAllDigits_minus (printNat_ne_nil x.natAbs) hdigits
    refine ⟨hcheck, ?_⟩
    rw [hvalue, decimal_printNat]
    omega
  · next hneg =>
    obtain ⟨hcheck, hvalue⟩ := checkAllDigits_digits (printNat_ne_nil x.natAbs) hdigits
    refine ⟨hcheck, ?_⟩
    rw [hvalue, decimal_printNat]
    omega

/-- Text without trimmed characters is left alone, also before a newline. -/
theorem trimNewLine_eq_self {s : List UInt8} (hne : s ≠ []) (h : ∀ c ∈ s, isTrimmed c = false) :
    trimNewLine s = s ∧ trimNewLine (s ++ ['\n'.toUInt8]) = s := by
  obtain ⟨c, s, rfl⟩ := List.exists_cons_of_ne_nil hne
  have hself : s.rdropWhile isTrimmed = s := by
    apply List.rdropWhile_eq_self_iff.mpr
    intro hs
    have := h _ (List.mem_cons_of_mem c (List.getLast_mem hs))
    simp [this]
  constructor
  · exact congrArg (c :: ·) hself
  · have hnl : (s ++ ['\n'.toUInt8]).rdropWhile isTrimmed = s := by
      rw [List.rdropWhile_concat_pos _ _ _ (by decide), hself]
    exact congrArg (c :: ·) hnl

/-- What follows the first `'='`. -/
theorem afterEquals_append {t : List UInt8} (ht : '='.toUInt8 ∉ t) (p : List UInt8) :
    afterEquals (t ++ '='.toUInt8 :: p) = some p := by
  have hdrop : (t ++ '='.toUInt8 :: p).dropWhile (· ≠ '='.toUInt8) = '='.toUInt8 :: p := by
    have hall : ∀ c ∈ t, decide (c ≠ '='.toUInt8) = true := by
      intro c hc
      simpa using fun he : c = '='.toUInt8 ↦ ht (he ▸ hc)
    rw [List.dropWhile_append_of_pos hall, List.dropWhile_cons_of_neg (by simp)]
  unfold afterEquals
  rw [hdrop]

/-- The number of a printed line. -/
theorem lineNumber_printed {t : List UInt8} (ht : '='.toUInt8 ∉ t) (x : Int) :
    lineNumber (t ++ '='.toUInt8 :: printInt x) = some x ∧
      lineNumber (t ++ '='.toUInt8 :: (printInt x ++ ['\n'.toUInt8])) = some x := by
  have hplain : ∀ c ∈ printInt x, isTrimmed c = false := by
    intro c hc
    rcases mem_printInt hc with rfl | hdigit
    · decide
    · have hd := isDigit_iff.mp hdigit
      apply Bool.eq_false_iff.mpr
      intro htrim
      simp only [isTrimmed, Bool.or_eq_true, decide_eq_true_eq] at htrim
      rcases htrim with (rfl | rfl) | rfl <;> exact absurd hd (by decide)
  obtain ⟨hself, hnl⟩ := trimNewLine_eq_self (printInt_ne_nil x) hplain
  obtain ⟨hcheck, hvalue⟩ := checkAllDigits_printInt x
  unfold lineNumber
  rw [afterEquals_append ht, afterEquals_append ht]
  dsimp only
  rw [hself, hnl, if_pos hcheck, hvalue]
  exact ⟨rfl, rfl⟩

/-! ### Buffers that supply nothing -/

/-- A buffer that does not begin with the key supplies nothing. -/
theorem supplied_eq_none_of_not_begins {key buf : List UInt8} (h : ¬ key <+: buf) :
    supplied key buf = none := by
  unfold supplied
  apply if_neg
  intro hkey
  exact h ((List.isPrefixOf_iff_prefix.mp hkey).trans (List.takeWhile_prefix _))

/-- A buffer without `'='` supplies nothing. -/
theorem supplied_eq_none_of_no_equals {key buf : List UInt8} (h : '='.toUInt8 ∉ buf) :
    supplied key buf = none := by
  have hline : '='.toUInt8 ∉ ofBuffer buf := fun hmem ↦ h ((List.takeWhile_subset _) hmem)
  have hdrop : (ofBuffer buf).dropWhile (· ≠ '='.toUInt8) = [] := by
    apply List.dropWhile_eq_nil_iff.mpr
    intro c hc
    simpa using fun he : c = '='.toUInt8 ↦ hline (he ▸ hc)
  unfold supplied lineNumber afterEquals
  rw [hdrop]
  simp

/-- A buffer without NUL that begins with the key supplies its number. -/
theorem supplied_of_begins {key buf : List UInt8} (hkey : key <+: buf) (hnul : 0 ∉ buf) :
    supplied key buf = lineNumber buf := by
  unfold supplied
  rw [ofBuffer_eq_self hnul, if_pos (List.isPrefixOf_iff_prefix.mpr hkey)]

/-- A lookup reads one buffer and goes on with what is left. -/
theorem firstNumber_append {key buf rest : List UInt8} (h : Fills (lineMaxChar - 1) buf rest) :
    firstNumber key (buf ++ rest) = (supplied key buf).or (firstNumber key rest) := by
  unfold firstNumber
  rw [fgetsLines_append h, List.findSome?_cons]
  cases supplied key buf <;> rfl

/-- A lookup reads the lines of a text and goes on with what is left. -/
theorem firstNumber_append_of_endsLine {key before : List UInt8} (h : EndsLine before)
    (rest : List UInt8) :
    firstNumber key (before ++ rest) = (firstNumber key before).or (firstNumber key rest) := by
  unfold firstNumber
  rw [fgetsLines_append_of_endsLine (by decide) h, List.findSome?_append]

/-- A text of one buffer supplies what the buffer does. -/
theorem firstNumber_single {key buf : List UInt8} (h : Fills (lineMaxChar - 1) buf []) :
    firstNumber key buf = supplied key buf := by
  have happend : firstNumber key (buf ++ []) = (supplied key buf).or (firstNumber key []) :=
    firstNumber_append h
  rw [List.append_nil] at happend
  rw [happend]
  exact Option.or_none

/-! ### Printed lines -/

/-- A printed line ends a line. -/
theorem endsLine_printLine (s : CopyState) : EndsLine (printLine s) := by
  right
  unfold printLine
  rw [← List.cons_append, ← List.append_assoc, List.getLast?_concat]

private theorem not_mem_print {c : UInt8} {t : List UInt8} (ht : c ∉ t) (hequals : c ≠ '='.toUInt8)
    (hminus : c ≠ '-'.toUInt8) (hdigit : isDigit c = false) (x : Int) :
    c ∉ t ++ '='.toUInt8 :: printInt x := by
  intro hmem
  rcases List.mem_append.mp hmem with hmem | hmem
  · exact ht hmem
  · rcases List.mem_cons.mp hmem with heq | hmem
    · exact hequals heq
    · rcases mem_printInt hmem with heq | hd
      · exact hminus heq
      · rw [hdigit] at hd
        cases hd

/-- A key in front of the `'='` makes a lookup find the printed number, if the number fits into
the buffer. -/
theorem firstNumber_printLine {key : List UInt8} {s : CopyState} (hkey : key <+: s.tmpkey)
    (hequals : '='.toUInt8 ∉ s.tmpkey) (hnl : '\n'.toUInt8 ∉ s.tmpkey) (hnul : 0 ∉ s.tmpkey)
    (hlen : s.tmpkey.length + (printInt s.tmpValue.toInt).length < lineMaxChar - 1) :
    firstNumber key (printLine s) = some s.tmpValue.toInt := by
  obtain ⟨t, v⟩ := s
  dsimp only at *
  have hline := not_mem_print hnl (by decide) (by decide) (by decide) v.toInt
  have hlong : (t ++ '='.toUInt8 :: printInt v.toInt).length =
      t.length + (printInt v.toInt).length + 1 := by
    rw [List.length_append, List.length_cons]
    omega
  have hprint : printLine ⟨t, v⟩ = (t ++ '='.toUInt8 :: printInt v.toInt) ++ ['\n'.toUInt8] := by
    simp [printLine]
  have hzero := not_mem_print hnul (by decide) (by decide) (by decide) v.toInt
  obtain ⟨hplain, hended⟩ := lineNumber_printed hequals v.toInt
  have hstart : key <+: t ++ '='.toUInt8 :: printInt v.toInt :=
    hkey.trans (List.prefix_append _ _)
  by_cases hfits : (t ++ '='.toUInt8 :: printInt v.toInt).length < lineMaxChar - 1
  · rw [hprint, firstNumber_single (fills_line hline hfits []),
      supplied_of_begins (hstart.trans (List.prefix_append _ _)) ?_, List.append_assoc,
      List.cons_append, hended]
    intro hmem
    rcases List.mem_append.mp hmem with hmem | hmem
    · exact hzero hmem
    · exact absurd (List.mem_singleton.mp hmem) (by decide)
  · -- Only the newline is left for the next buffer.
    have hfull : (t ++ '='.toUInt8 :: printInt v.toInt).length = lineMaxChar - 1 := by omega
    have hfills := fills_take (n := lineMaxChar - 1) (by decide) hline hfull.ge
      ['\n'.toUInt8]
    rw [List.take_of_length_le hfull.le] at hfills
    rw [hprint, firstNumber_append hfills, supplied_of_begins hstart hzero, hplain]
    rfl

/-- A text before `'='` that supplies nothing for a key when it is printed: one that does not
begin with the key, or a buffer of its own. -/
structure Silent (key tmpkey : List UInt8) : Prop where
  no_equals : '='.toUInt8 ∉ tmpkey
  silent : ¬ key <+: tmpkey ∧ '\n'.toUInt8 ∉ tmpkey ∧ tmpkey.length < lineMaxChar - 1 ∨
    ∀ rest, Fills (lineMaxChar - 1) tmpkey rest

/-- A line that does not begin with the key supplies nothing if what may be left of it for a
second buffer has no `'='`. -/
theorem firstNumber_line_eq_none {key line : List UInt8} (hnl : '\n'.toUInt8 ∉ line)
    (hlen : line.length < 2 * (lineMaxChar - 1)) (hkey : ¬ key <+: line ++ ['\n'.toUInt8])
    (hrest : '='.toUInt8 ∉ line.drop (lineMaxChar - 1)) :
    firstNumber key (line ++ ['\n'.toUInt8]) = none := by
  by_cases hfits : line.length < lineMaxChar - 1
  · rw [firstNumber_single (fills_line hnl hfits [])]
    exact supplied_eq_none_of_not_begins hkey
  · have hfull := fills_take (by decide) hnl (Nat.not_lt.mp hfits)
      (line.drop (lineMaxChar - 1) ++ ['\n'.toUInt8])
    have hleft : Fills (lineMaxChar - 1) (line.drop (lineMaxChar - 1) ++ ['\n'.toUInt8]) [] := by
      refine fills_line (fun hmem ↦ hnl (List.mem_of_mem_drop hmem)) ?_ []
      rw [List.length_drop]
      omega
    have hequals : '='.toUInt8 ∉ line.drop (lineMaxChar - 1) ++ ['\n'.toUInt8] := by
      intro hmem
      rcases List.mem_append.mp hmem with hmem | hmem
      · exact hrest hmem
      · exact absurd (List.mem_singleton.mp hmem) (by decide)
    have hstart : ¬ key <+: line.take (lineMaxChar - 1) := fun h ↦
      hkey ((h.trans (List.take_prefix _ _)).trans (List.prefix_append _ _))
    rw [← List.take_append_drop (lineMaxChar - 1) line, List.append_assoc,
      firstNumber_append hfull, firstNumber_single hleft, supplied_eq_none_of_no_equals hequals,
      supplied_eq_none_of_not_begins hstart]
    rfl

/-- A printed line with a silent text supplies nothing. -/
theorem Silent.firstNumber_printLine {key : List UInt8} {s : CopyState} (h : Silent key s.tmpkey)
    (hne : key ≠ []) (hequals : '='.toUInt8 ∉ key) : firstNumber key (printLine s) = none := by
  obtain ⟨t, v⟩ := s
  have hno := h.no_equals
  have hsilent := h.silent
  dsimp only at hno hsilent
  have hshort := length_printInt_le v
  have hsize : lineMaxChar - 1 = 1023 := rfl
  have hkey : ∀ {t' rest : List UInt8}, ¬ key <+: t' → ¬ key <+: t' ++ '='.toUInt8 :: rest :=
    fun ht' h ↦ ht' (List.prefix_of_prefix_append_cons hequals h)
  have hprint : printLine ⟨t, v⟩ =
      (t ++ '='.toUInt8 :: printInt v.toInt) ++ ['\n'.toUInt8] := by
    simp [printLine]
  rcases hsilent with ⟨hother, hnl, hlen⟩ | hfills
  · -- The first buffer begins with the text, and a second one holds digits only.
    rw [hprint]
    refine firstNumber_line_eq_none
      (not_mem_print hnl (by decide) (by decide) (by decide) v.toInt) ?_ ?_ ?_
    · rw [List.length_append, List.length_cons]
      omega
    · rw [List.append_assoc, List.cons_append]
      exact hkey hother
    · obtain ⟨k, hk⟩ : ∃ k, lineMaxChar - 1 - t.length = k + 1 :=
        ⟨lineMaxChar - 1 - t.length - 1, by omega⟩
      rw [List.drop_append, List.drop_of_length_le hlen.le, List.nil_append, hk,
        List.drop_succ_cons]
      intro hmem
      rcases mem_printInt (List.mem_of_mem_drop hmem) with heq | hd
      · exact absurd heq (by decide)
      · exact absurd hd (by decide)
  · -- The text is a buffer of its own, and the next one begins with '='.
    have hline := not_mem_print (t := []) List.not_mem_nil (by decide : '\n'.toUInt8 ≠ _)
      (by decide) (by decide) v.toInt
    have hrest : Fills (lineMaxChar - 1)
        ('='.toUInt8 :: (printInt v.toInt ++ ['\n'.toUInt8])) [] := by
      refine fills_line hline ?_ []
      rw [List.nil_append, List.length_cons]
      omega
    have hnil : ¬ key <+: '='.toUInt8 :: (printInt v.toInt ++ ['\n'.toUInt8]) :=
      hkey fun h ↦ hne (List.prefix_nil.mp h)
    unfold printLine
    rw [firstNumber_append (hfills _), supplied_eq_none_of_no_equals hno, firstNumber_single hrest,
      supplied_eq_none_of_not_begins hnil]
    rfl

/-! ### Scanned lines -/

/-- A line has no `'='`, or it is a text, `'='` and the rest. -/
theorem equals_cases (line : List UInt8) :
    ('='.toUInt8 ∉ line ∧ line.takeWhile (· ≠ '='.toUInt8) = line ∧ afterEquals line = none) ∨
      ∃ t p, line = t ++ '='.toUInt8 :: p ∧ '='.toUInt8 ∉ t ∧
        line.takeWhile (· ≠ '='.toUInt8) = t ∧ afterEquals line = some p := by
  have hall : ∀ {t : List UInt8}, '='.toUInt8 ∉ t → ∀ c ∈ t, decide (c ≠ '='.toUInt8) = true := by
    intro t ht c hc
    simpa using fun he : c = '='.toUInt8 ↦ ht (he ▸ hc)
  by_cases hmem : '='.toUInt8 ∈ line
  · obtain ⟨t, p, rfl, ht⟩ := List.eq_append_cons_of_mem hmem
    refine .inr ⟨t, p, rfl, ht, ?_, afterEquals_append ht p⟩
    rw [List.takeWhile_append_of_pos (hall ht), List.takeWhile_cons_of_neg (by simp),
      List.append_nil]
  · refine .inl ⟨hmem, List.takeWhile_eq_self_iff.mpr (hall hmem), ?_⟩
    unfold afterEquals
    rw [List.dropWhile_eq_nil_iff.mpr (hall hmem)]

/-- What `sscanf_s` leaves in the variables. -/
theorem scanLine_cases {scan : Sscanf} {s s' : CopyState} {line : List UInt8}
    (h : scanLine scan s line = some s') :
    line.takeWhile (· ≠ '='.toUInt8) = [] ∧ s' = { s with tmpkey := scan.noMatch s.tmpkey } ∨
      line.takeWhile (· ≠ '='.toUInt8) ≠ [] ∧ s' =
        ⟨line.takeWhile (· ≠ '='.toUInt8),
          match (afterEquals line).bind scanInt with
          | none => s.tmpValue
          | some x => scan.value x⟩ := by
  unfold scanLine at h
  split at h
  · cases h
  · dsimp only at h
    split at h
    · next hempty => exact .inl ⟨hempty, (Option.some.inj h).symm⟩
    · next hempty =>
      refine .inr ⟨hempty, ?_⟩
      cases hafter : afterEquals line with
      | none =>
        rw [hafter] at h
        exact (Option.some.inj h).symm
      | some p =>
        rw [hafter] at h
        dsimp only at h
        rw [Option.bind_some]
        cases hscan : scanInt p with
        | none =>
          rw [hscan] at h
          exact (Option.some.inj h).symm
        | some x =>
          rw [hscan] at h
          exact (Option.some.inj h).symm

/-- Nothing begins the empty text but the empty key. -/
theorem Silent.nil {key : List UInt8} (hne : key ≠ []) : Silent key [] :=
  ⟨List.not_mem_nil, .inl ⟨fun h ↦ hne (List.prefix_nil.mp h), List.not_mem_nil, by decide⟩⟩

/-! ### Lines that are taken apart -/

/-- The buffer is full or ends a line. -/
def Stops (line : List UInt8) : Prop :=
  line.getLast? = some '\n'.toUInt8 ∨ line.length = lineMaxChar - 1

/-- A line that is taken apart when `key` is set, and that is printed with a number behind
`other`: it begins with `other`, and it has an `'='` or does not end where a buffer does, so that
the `'='` that is printed comes behind it. The empty key finds a number on every line. -/
structure PrintsNumber (key other line : List UInt8) : Prop where
  rewritten : IsRewritten key line
  begins : other <+: line
  printed : other = [] ∨ '='.toUInt8 ∈ line ∨ ¬ Stops line

/-- The variables stay silent over a line that is taken apart and not printed with a number. -/
theorem Silent.scanLine {scan : Sscanf} {key other line rest : List UInt8} {s s' : CopyState}
    (h : Silent other s.tmpkey) (hne : other ≠ []) (hfills : Fills (lineMaxChar - 1) line rest)
    (hrewritten : IsRewritten key line) (hline : ¬ PrintsNumber key other line)
    (hscan : scanLine scan s line = some s') : Silent other s'.tmpkey := by
  rcases scanLine_cases hscan with ⟨-, rfl⟩ | ⟨-, rfl⟩
  · dsimp only
    rcases scan.noMatch_cases s.tmpkey with hold | hnil
    · rwa [hold]
    · rw [hnil]
      exact Silent.nil hne
  · dsimp only
    rcases equals_cases line with ⟨hno, htext, -⟩ | ⟨t, p, rfl, hno, htext, -⟩
    · rw [htext]
      refine ⟨hno, ?_⟩
      by_cases hstop : Stops line
      · exact .inr (hfills.of_stop hstop)
      · -- A last line without newline, or one that a NUL cuts off.
        refine .inl ⟨fun hkey ↦ hline ⟨hrewritten, hkey, .inr (.inr hstop)⟩, ?_, ?_⟩
        · exact hfills.newline_not_mem fun hlast ↦ hstop (.inl hlast)
        · exact Nat.lt_of_le_of_ne hfills.length_le fun hfull ↦ hstop (.inr hfull)
    · rw [htext]
      obtain ⟨hnl, hlen⟩ := hfills.inside
      refine ⟨hno, .inl ⟨fun hkey ↦ hline ⟨hrewritten, hkey.trans (List.prefix_append _ _),
        .inr (.inl (List.mem_append_right _ List.mem_cons_self))⟩, hnl, hlen⟩⟩

/-! ### Written buffers -/

/-- A buffer of which nothing but a NUL at its start is lost when it is written: it is taken
apart, or it is copied and has no NUL behind other bytes. -/
def Uncut (key buf : List UInt8) : Prop :=
  IsRewritten key (ofBuffer buf) ∨ 0 ∉ buf ∨ ofBuffer buf = []

section Written

variable (scan : Sscanf) {key other buf rest : List UInt8} (v : Int32)

/-- A copied buffer is read as the one it was. -/
theorem fills_copied (hfills : Fills (lineMaxChar - 1) buf rest) (s : CopyState) :
    Fills (lineMaxChar - 1) buf (rewriteLines scan key v s (fgetsLines lineMaxChar rest)) := by
  rcases hfills.stop with hlast | hfull | rfl
  · exact hfills.of_stop (.inl hlast) _
  · exact hfills.of_stop (.inr hfull) _
  · exact hfills

/-- A buffer that is copied leaves the variables alone. -/
theorem copyState_copied (hcopied : ¬ IsRewritten key (ofBuffer buf)) (s : CopyState) :
    copyState scan key v s [buf] = s := by
  change ((copyLine scan key v s (ofBuffer buf)).map Prod.fst).getD s = s
  rw [copyLine_of_not_isRewritten s hcopied]
  rfl

/-- A buffer that is copied supplies what it did, and the copy goes on as before. -/
theorem rewriteLines_copied (hfills : Fills (lineMaxChar - 1) buf rest) (huncut : Uncut key buf)
    (hcopied : ¬ IsRewritten key (ofBuffer buf)) (s : CopyState) :
    firstNumber other (rewriteLines scan key v s (buf :: fgetsLines lineMaxChar rest)) =
      (supplied other buf).or
        (firstNumber other (rewriteLines scan key v s (fgetsLines lineMaxChar rest))) := by
  rw [rewriteLines, copyLine_of_not_isRewritten s hcopied]
  dsimp only
  rcases huncut.resolve_left hcopied with hnul | hempty
  · rw [ofBuffer_eq_self hnul, firstNumber_append (fills_copied scan v hfills s)]
  · have hnone : supplied other buf = none := by
      unfold supplied
      rw [hempty]
      exact ite_self none
    rw [hempty, hnone]
    rfl

/-- A buffer that is taken apart leaves behind what was scanned, with the new value if its text
is the key. -/
theorem copyState_taken {s s' : CopyState} (hrewritten : IsRewritten key (ofBuffer buf))
    (hscan : scanLine scan s (ofBuffer buf) = some s') :
    copyState scan key v s [buf] = if s'.tmpkey = key then { s' with tmpValue := v } else s' := by
  change ((copyLine scan key v s (ofBuffer buf)).map Prod.fst).getD s = _
  rw [copyLine_of_isRewritten hrewritten hscan]
  rfl

/-- A buffer that is taken apart is printed from the variables it leaves behind, and the copy goes
on with them. -/
theorem rewriteLines_taken {s s' : CopyState} (hrewritten : IsRewritten key (ofBuffer buf))
    (hscan : scanLine scan s (ofBuffer buf) = some s') (bufs : List (List UInt8)) :
    firstNumber other (rewriteLines scan key v s (buf :: bufs)) =
      (firstNumber other (printLine (copyState scan key v s [buf]))).or
        (firstNumber other (rewriteLines scan key v (copyState scan key v s [buf]) bufs)) := by
  rw [copyState_taken scan v hrewritten hscan, rewriteLines,
    copyLine_of_isRewritten hrewritten hscan]
  dsimp only
  rw [firstNumber_append_of_endsLine (endsLine_printLine _)]

/-- The text that a buffer leaves behind does not depend on the value that is set, and neither
does the number unless that text is the key. -/
theorem copyState_eq (hne : key ≠ []) {s : CopyState} (w : Int32)
    (hkey : (copyState scan key v s [buf]).tmpkey ≠ key) :
    copyState scan key w s [buf] = copyState scan key v s [buf] := by
  by_cases hrewritten : IsRewritten key (ofBuffer buf)
  · have hline : ofBuffer buf ≠ [] := fun hempty ↦
      hne (List.eq_nil_of_infix_nil (hempty ▸ hrewritten.2.2))
    obtain ⟨s', hs'⟩ := scanLine_ne_none scan s hline
    have hv := copyState_taken scan v hrewritten hs'
    have hw := copyState_taken scan w hrewritten hs'
    have hother : s'.tmpkey ≠ key := by
      intro heq
      rw [hv, if_pos heq] at hkey
      exact hkey heq
    rw [hv, hw, if_neg hother, if_neg hother]
  · unfold copyState
    simp only [List.foldl_cons, List.foldl_nil, copyLine_of_not_isRewritten _ hrewritten]

/-- A buffer that supplies nothing and is not printed with a number: what is written for it
supplies nothing, and the copy goes on with silent variables. -/
theorem rewriteLines_silent (hkey : key ≠ []) (hne : other ≠ []) (hequals : '='.toUInt8 ∉ other)
    {s : CopyState} (hs : Silent other s.tmpkey) (hfills : Fills (lineMaxChar - 1) buf rest)
    (huncut : Uncut key buf) (hbuf : ¬ PrintsNumber key other (ofBuffer buf))
    (hnone : supplied other buf = none) :
    Silent other (copyState scan key v s [buf]).tmpkey ∧
      firstNumber other (rewriteLines scan key v s (buf :: fgetsLines lineMaxChar rest)) =
        firstNumber other (rewriteLines scan key v (copyState scan key v s [buf])
          (fgetsLines lineMaxChar rest)) := by
  by_cases hrewritten : IsRewritten key (ofBuffer buf)
  · have hline : ofBuffer buf ≠ [] := fun hempty ↦
      hkey (List.eq_nil_of_infix_nil (hempty ▸ hrewritten.2.2))
    obtain ⟨s', hs'⟩ := scanLine_ne_none scan s hline
    have hscanned := hs.scanLine hne (hfills.ofBuffer hline) hrewritten hbuf hs'
    have hsilent : Silent other (copyState scan key v s [buf]).tmpkey := by
      rw [copyState_taken scan v hrewritten hs']
      split
      · exact hscanned
      · exact hscanned
    refine ⟨hsilent, ?_⟩
    rw [rewriteLines_taken scan v hrewritten hs', hsilent.firstNumber_printLine hne hequals]
    rfl
  · rw [rewriteLines_copied scan v hfills huncut hrewritten s, copyState_copied scan v hrewritten s,
      hnone]
    exact ⟨hs, rfl⟩

/-- The text before the `'='` of a line that is printed with a number. -/
theorem PrintsNumber.text {line : List UInt8} (h : PrintsNumber key other line)
    (hne : other ≠ []) (hequals : '='.toUInt8 ∉ other)
    (hfills : Fills (lineMaxChar - 1) line rest) :
    other <+: line.takeWhile (· ≠ '='.toUInt8) ∧
      '\n'.toUInt8 ∉ line.takeWhile (· ≠ '='.toUInt8) := by
  rcases equals_cases line with ⟨hno, htext, -⟩ | ⟨t, p, hsplit, -, htext, -⟩
  · have hstop := (h.printed.resolve_left hne).resolve_left hno
    rw [htext]
    exact ⟨h.begins, hfills.newline_not_mem fun hlast ↦ hstop (.inl hlast)⟩
  · rw [htext]
    rw [hsplit] at hfills
    exact ⟨List.prefix_of_prefix_append_cons hequals (hsplit ▸ h.begins), hfills.inside.1⟩

/-- A line that is printed with a number leaves its text behind, and a lookup finds the number
that it leaves behind, if there is room for it. -/
theorem rewriteLines_printsNumber (hne : other ≠ []) (hequals : '='.toUInt8 ∉ other)
    (s : CopyState) (hfills : Fills (lineMaxChar - 1) buf rest)
    (hbuf : PrintsNumber key other (ofBuffer buf))
    (hlen : ((ofBuffer buf).takeWhile (· ≠ '='.toUInt8)).length ≤ 1011)
    (bufs : List (List UInt8)) :
    (copyState scan key v s [buf]).tmpkey = (ofBuffer buf).takeWhile (· ≠ '='.toUInt8) ∧
      firstNumber other (rewriteLines scan key v s (buf :: bufs)) =
        some (copyState scan key v s [buf]).tmpValue.toInt := by
  have hline : ofBuffer buf ≠ [] := fun hempty ↦
    hne (List.prefix_nil.mp (hempty ▸ hbuf.begins))
  obtain ⟨hstart, hnl⟩ := hbuf.text hne hequals (hfills.ofBuffer hline)
  obtain ⟨s', hs'⟩ := scanLine_ne_none scan s hline
  have htmpkey : s'.tmpkey = (ofBuffer buf).takeWhile (· ≠ '='.toUInt8) := by
    rcases scanLine_cases hs' with ⟨hnil, -⟩ | ⟨-, rfl⟩
    · rw [hnil, List.prefix_nil] at hstart
      exact absurd hstart hne
    · rfl
  have hstate := copyState_taken scan v hbuf.rewritten hs'
  have htext : (copyState scan key v s [buf]).tmpkey =
      (ofBuffer buf).takeWhile (· ≠ '='.toUInt8) := by
    rw [hstate, ← htmpkey]
    split
    · rfl
    · rfl
  refine ⟨htext, ?_⟩
  have hshort := length_printInt_le (copyState scan key v s [buf]).tmpValue
  have hfound : firstNumber other (printLine (copyState scan key v s [buf])) =
      some (copyState scan key v s [buf]).tmpValue.toInt := by
    refine firstNumber_printLine (htext ▸ hstart) ?_ (htext ▸ hnl) ?_ ?_
    · rw [htext]
      exact fun hmem ↦ absurd (List.mem_takeWhile_imp hmem) (by simp)
    · rw [htext]
      exact fun hmem ↦ zero_notMem_ofBuffer buf (List.takeWhile_subset _ hmem)
    · rw [htext]
      change _ < 1023
      omega
  rw [rewriteLines_taken scan v hbuf.rewritten hs', hfound]
  rfl

end Written

end Memlink
