import Memlink.Config.ExactKey
import Memlink.Config.Printed

/-!
# Set, then get

Whether a lookup after `SetValueToCfg` finds the value that was set. The writer sets a value
only where the text before `'='` is the key itself (`memlink_driver.c:431`), while a lookup
takes every line that begins with the key. So what counts is the first line that is printed
with a number behind the key: everything the writer puts before it supplies nothing.
-/

namespace Memlink

open CString

/-- The first buffer that is printed with a number behind the key that is set. -/
structure FirstPrinted (key content : List UInt8) (pre : List (List UInt8))
    (buf : List UInt8) (post : List (List UInt8)) : Prop where
  buffers : fgetsLines lineMaxChar content = pre ++ buf :: post
  passed : ∀ b ∈ pre, ¬ PrintsNumber key key (ofBuffer b)
  found : PrintsNumber key key (ofBuffer buf)

/-- A lookup stops at a line whose text before `'='`, up to trailing spaces, is the key. -/
def ReadsExact (key content : List UInt8) : Prop :=
  ∃ pre buf post, StopsAt key content pre buf post ∧ keyText buf = key

/-- After every value that is set, other than the error codes, a lookup returns it. -/
def SetGet (scan : Sscanf) (key content : List UInt8) : Prop :=
  ∀ (v : Int32) (flushed : Nat), v ≠ -1 → v ≠ cfgopenOrMemsetError →
    (getIntegerValueFromCfg ⟨some (setValueToCfg scan .ok flushed key v content), true, true⟩
      key false).1 = v

/-- The first buffer that is printed with a number behind the key has the very key before its
`'='`; the buffers before it are written uncut and supply nothing. The key begins no comment and
leaves room for a number, and under the empty key every line can be parsed. -/
def SetsExactly (key content : List UInt8) : Prop :=
  key.head? ≠ some '#'.toUInt8 ∧ key.length ≤ 1011 ∧
    (∀ b ∈ fgetsLines lineMaxChar content, ofBuffer b = [] → key ≠ []) ∧
    ∃ pre buf post, FirstPrinted key content pre buf post ∧
      (∀ b ∈ pre, Uncut key b ∧ supplied key b = none) ∧
      (ofBuffer buf).takeWhile (· ≠ '='.toUInt8) = key

/-- Up to the first buffer that is printed with a number behind the key, the buffers are written
uncut, and that one has room for a number. -/
def PlainUpTo (key content : List UInt8) : Prop :=
  ∀ pre buf post, FirstPrinted key content pre buf post →
    (∀ b ∈ pre, Uncut key b) ∧ ((ofBuffer buf).takeWhile (· ≠ '='.toUInt8)).length ≤ 1011

/-! ### Lines before the first one that is printed with a number -/

/-- A silent text is not the key itself. -/
theorem Silent.ne_key {key tmpkey : List UInt8} (h : Silent key tmpkey)
    (hnl : '\n'.toUInt8 ∉ key) (hlen : key.length < lineMaxChar - 1) : tmpkey ≠ key := by
  rintro rfl
  rcases h.silent with ⟨hother, -, -⟩ | hfills
  · exact hother List.prefix_rfl
  · rcases (hfills [0]).stop_of_ne_nil (List.cons_ne_nil _ _) with hlast | hfull
    · exact hnl (List.mem_of_getLast? hlast)
    · omega

/-- A buffer that is not printed with a number behind a key supplies none. -/
theorem supplied_eq_none_of_not_printsNumber {key buf : List UInt8} (hne : key ≠ [])
    (hhash : key.head? ≠ some '#'.toUInt8) (hnl : '\n'.toUInt8 ∉ key)
    (h : ¬ PrintsNumber key key (ofBuffer buf)) : supplied key buf = none := by
  unfold supplied
  split
  · next hbegins =>
    have hstart := List.isPrefixOf_iff_prefix.mp hbegins
    have hrewritten : IsRewritten key (ofBuffer buf) := by
      obtain ⟨c, key, rfl⟩ := List.exists_cons_of_ne_nil hne
      obtain ⟨more, hmore⟩ := hstart
      rw [← hmore]
      refine ⟨hhash, fun heq ↦ hnl ?_, List.infix_append_left⟩
      rw [← Option.some.inj heq]
      exact List.mem_cons_self
    rcases equals_cases (ofBuffer buf) with ⟨-, -, hafter⟩ | ⟨t, p, hsplit, -⟩
    · rw [lineNumber, hafter]
    · refine absurd ⟨hrewritten, hstart, .inr (.inl ?_)⟩ h
      rw [hsplit]
      exact List.mem_append_right _ List.mem_cons_self
  · rfl

section Copied

variable (scan : Sscanf) {key : List UInt8}

/-- What a lookup finds after a value was set: that value if the first buffer that is printed
with a number has the very key, and else a number that does not depend on it. -/
theorem firstNumber_rewriteLines (hne : key ≠ []) (hequals : '='.toUInt8 ∉ key)
    (hhash : key.head? ≠ some '#'.toUInt8) {content buf : List UInt8}
    {pre post : List (List UInt8)} (h : FirstPrinted key content pre buf post)
    (hpre : ∀ b ∈ pre, Uncut key b)
    (hlen : ((ofBuffer buf).takeWhile (· ≠ '='.toUInt8)).length ≤ 1011) {s : CopyState}
    (hs : Silent key s.tmpkey) :
    ∃ y : Int32, ∀ v,
      firstNumber key (rewriteLines scan key v s (fgetsLines lineMaxChar content)) =
        some (if (ofBuffer buf).takeWhile (· ≠ '='.toUInt8) = key then v else y).toInt := by
  -- The key stands before an '=' that is printed, so it is short and on one line.
  have hline : ofBuffer buf ≠ [] := fun hempty ↦
    hne (List.prefix_nil.mp (hempty ▸ h.found.begins))
  have hkey : '\n'.toUInt8 ∉ key ∧ key.length < lineMaxChar - 1 := by
    obtain ⟨rest, hfills⟩ := exists_fills_of_mem (by decide)
      (show buf ∈ fgetsLines lineMaxChar content by simp [h.buffers])
    obtain ⟨hstart, hnl⟩ := h.found.text hne hequals (hfills.ofBuffer hline)
    exact ⟨fun hmem ↦ hnl (hstart.subset hmem),
      lt_of_le_of_lt (hstart.length_le.trans hlen) (by decide)⟩
  induction content using fgets_induction (n := lineMaxChar - 1) (by decide) generalizing pre s with
  | nil => exact absurd h.buffers (by simp [fgetsLines, fgetsFrom])
  | fills first rest hfills ih =>
    have hbufs := h.buffers
    rw [fgetsLines_append hfills] at hbufs ⊢
    cases pre with
    | nil =>
      obtain ⟨rfl, rfl⟩ := List.cons.inj hbufs
      obtain ⟨s', hs'⟩ := scanLine_ne_none scan s hline
      refine ⟨s'.tmpValue, fun v ↦ ?_⟩
      obtain ⟨htext, hfound⟩ := rewriteLines_printsNumber scan v hne hequals s hfills h.found hlen
        (fgetsLines lineMaxChar rest)
      have hstate := copyState_taken scan v h.found.rewritten hs'
      rw [hfound, ← htext, hstate]
      split
      · rfl
      · rfl
    | cons b pre =>
      obtain ⟨rfl, htail⟩ := List.cons.inj hbufs
      have hfirst := h.passed first List.mem_cons_self
      have hstep := fun v ↦ rewriteLines_silent scan v hne hne hequals hs hfills
        (hpre first List.mem_cons_self) hfirst
        (supplied_eq_none_of_not_printsNumber hne hhash hkey.1 hfirst)
      have hsilent := (hstep 0).1
      obtain ⟨y, hy⟩ := ih
        ⟨htail, fun b hb ↦ h.passed b (List.mem_cons_of_mem _ hb), h.found⟩
        (fun b hb ↦ hpre b (List.mem_cons_of_mem _ hb)) hsilent
      refine ⟨y, fun v ↦ ?_⟩
      rw [(hstep v).2, copyState_eq scan 0 hne v (hsilent.ne_key hkey.1 hkey.2)]
      exact hy v

/-! ### The empty key -/

/-- Under the empty key a printed line supplies its number, also if its text ends a line. -/
theorem firstNumber_printLine_nil {s : CopyState} {line rest : List UInt8}
    (hfills : Fills (lineMaxChar - 1) line rest)
    (htext : s.tmpkey = line.takeWhile (· ≠ '='.toUInt8)) (hnul : 0 ∉ line)
    (hlen : s.tmpkey.length ≤ 1011) :
    firstNumber [] (printLine s) = some s.tmpValue.toInt := by
  have hshort := length_printInt_le s.tmpValue
  have hsize : lineMaxChar - 1 = 1023 := rfl
  have hno : '='.toUInt8 ∉ s.tmpkey := by
    rw [htext]
    exact fun hmem ↦ absurd (List.mem_takeWhile_imp hmem) (by simp)
  by_cases hnl : '\n'.toUInt8 ∈ s.tmpkey
  · -- The text is a whole line, and the '=' begins the next one.
    rcases equals_cases line with ⟨-, hself, -⟩ | ⟨t, p, hsplit, -, ht, -⟩
    · rw [hself] at htext
      have hlast : line.getLast? = some '\n'.toUInt8 := by
        by_contra hother
        exact hfills.newline_not_mem hother (htext ▸ hnl)
      have hrest : firstNumber [] (printLine ⟨[], s.tmpValue⟩) = some s.tmpValue.toInt :=
        firstNumber_printLine List.prefix_rfl List.not_mem_nil List.not_mem_nil List.not_mem_nil
          (by change 0 + _ < 1023; dsimp only; omega)
      have happend : printLine s = line ++ printLine ⟨[], s.tmpValue⟩ := by
        rw [← htext]
        rfl
      rw [happend, firstNumber_append (hfills.of_stop (.inl hlast) _),
        supplied_eq_none_of_no_equals (htext ▸ hno), hrest]
      rfl
    · rw [ht] at htext
      rw [hsplit] at hfills
      exact absurd (htext ▸ hnl) hfills.inside.1
  · refine firstNumber_printLine List.nil_prefix hno hnl ?_ (by omega)
    rw [htext]
    exact fun hmem ↦ hnul (List.takeWhile_subset _ hmem)

/-- What a lookup of the empty key finds after a value was set: that value if the copied buffers
supply nothing and the first one that is taken apart begins with `'='`, and else a number that
does not depend on it. -/
theorem firstNumber_rewriteLines_nil {content buf : List UInt8} {pre post : List (List UInt8)}
    (h : FirstPrinted [] content pre buf post) (hpre : ∀ b ∈ pre, Uncut [] b)
    (hline : ofBuffer buf ≠ [])
    (hlen : ((ofBuffer buf).takeWhile (· ≠ '='.toUInt8)).length ≤ 1011) {s : CopyState}
    (hs : s.tmpkey = []) :
    ∃ y : Int, ∀ v,
      firstNumber [] (rewriteLines scan [] v s (fgetsLines lineMaxChar content)) =
        some (if (∀ b ∈ pre, supplied [] b = none) ∧
          (ofBuffer buf).takeWhile (· ≠ '='.toUInt8) = [] then v.toInt else y) := by
  induction content using fgets_induction (n := lineMaxChar - 1) (by decide) generalizing pre with
  | nil => exact absurd h.buffers (by simp [fgetsLines, fgetsFrom])
  | fills first rest hfills ih =>
    have hbufs := h.buffers
    rw [fgetsLines_append hfills] at hbufs ⊢
    cases pre with
    | nil =>
      obtain ⟨hbuf, -⟩ := List.cons.inj hbufs
      rw [hbuf] at hfills ⊢
      obtain ⟨s', hs'⟩ := scanLine_ne_none scan s hline
      have htmpkey : s'.tmpkey = (ofBuffer buf).takeWhile (· ≠ '='.toUInt8) := by
        rcases scanLine_cases hs' with ⟨hnil, rfl⟩ | ⟨-, rfl⟩
        · rw [hnil]
          exact (scan.noMatch_cases s.tmpkey).elim (fun hold ↦ hold.trans hs) id
        · rfl
      refine ⟨s'.tmpValue.toInt, fun v ↦ ?_⟩
      have hstate := copyState_taken scan v h.found.rewritten hs'
      have hstored : (copyState scan [] v s [buf]).tmpkey =
          (ofBuffer buf).takeWhile (· ≠ '='.toUInt8) := by
        rw [hstate, ← htmpkey]
        split
        · rfl
        · rfl
      rw [rewriteLines_taken scan v h.found.rewritten hs',
        firstNumber_printLine_nil (hfills.ofBuffer hline) hstored (zero_notMem_ofBuffer buf)
          (hstored ▸ hlen), ← htmpkey, hstate]
      by_cases hkey : s'.tmpkey = []
      · rw [if_pos hkey, if_pos ⟨fun b hb ↦ absurd hb List.not_mem_nil, hkey⟩]
        rfl
      · rw [if_neg hkey, if_neg fun hboth ↦ hkey hboth.2]
        rfl
    | cons b pre =>
      obtain ⟨rfl, htail⟩ := List.cons.inj hbufs
      have hcopied : ¬ IsRewritten [] (ofBuffer first) := fun hrewritten ↦
        h.passed first List.mem_cons_self ⟨hrewritten, List.nil_prefix, .inl rfl⟩
      have hstep : ∀ v, firstNumber [] (rewriteLines scan [] v s
          (first :: fgetsLines lineMaxChar rest)) = (supplied [] first).or
            (firstNumber [] (rewriteLines scan [] v s (fgetsLines lineMaxChar rest))) :=
        fun v ↦ rewriteLines_copied scan v hfills (hpre first List.mem_cons_self) hcopied s
      cases hsupplied : supplied [] first with
      | some x =>
        refine ⟨x, fun v ↦ ?_⟩
        rw [hstep v, hsupplied, if_neg]
        · rfl
        · rintro ⟨hnone, -⟩
          rw [hnone first List.mem_cons_self] at hsupplied
          cases hsupplied
      | none =>
        obtain ⟨y, hy⟩ := ih
          ⟨htail, fun b hb ↦ h.passed b (List.mem_cons_of_mem _ hb), h.found⟩
          (fun b hb ↦ hpre b (List.mem_cons_of_mem _ hb))
        refine ⟨y, fun v ↦ ?_⟩
        rw [hstep v, hsupplied, Option.none_or, hy v]
        simp only [List.forall_mem_cons, hsupplied, true_and]

end Copied

/-! ### Keys that begin a comment -/

/-- For a key that begins with `'#'` nothing that is written depends on the value: lines of
the key are copied as comments. -/
theorem rewriteLines_comment (scan : Sscanf) {key : List UInt8}
    (hhash : key.head? = some '#'.toUInt8) (v w : Int32) {s : CopyState}
    (hs : s.tmpkey.head? ≠ some '#'.toUInt8) (bufs : List (List UInt8)) :
    rewriteLines scan key v s bufs = rewriteLines scan key w s bufs := by
  induction bufs generalizing s with
  | nil => rfl
  | cons buf bufs ih =>
    unfold rewriteLines
    by_cases hrewritten : IsRewritten key (ofBuffer buf)
    · cases hscan : scanLine scan s (ofBuffer buf) with
      | none => simp only [copyLine, if_pos hrewritten, hscan]
      | some s' =>
        have hs' : s'.tmpkey.head? ≠ some '#'.toUInt8 := by
          rcases scanLine_cases hscan with ⟨-, rfl⟩ | ⟨htext, rfl⟩
          · rcases scan.noMatch_cases s.tmpkey with hold | hnil
            · simpa only [hold] using hs
            · simp [hnil]
          · intro heq
            apply hrewritten.1
            obtain ⟨more, hmore⟩ := List.takeWhile_prefix (l := ofBuffer buf)
              (· ≠ '='.toUInt8)
            rw [← hmore, List.head?_append, heq]
            rfl
        have hkey : s'.tmpkey ≠ key := fun heq ↦ hs' (heq ▸ hhash)
        rw [copyLine_of_isRewritten hrewritten hscan, copyLine_of_isRewritten hrewritten hscan,
          if_neg hkey, if_neg hkey]
        dsimp only
        rw [ih hs']
    · rw [copyLine_of_not_isRewritten s hrewritten, copyLine_of_not_isRewritten s hrewritten]
      dsimp only
      rw [ih hs]

/-! ### The round trip -/

private theorem head?_of_ofBuffer {buf : List UInt8} {c : UInt8}
    (h : (ofBuffer buf).head? = some c) : buf.head? = some c := by
  obtain ⟨more, hmore⟩ : ofBuffer buf <+: buf := List.takeWhile_prefix _
  rw [← hmore, List.head?_append, h]
  rfl

private theorem keyText_head?_hash {buf : List UInt8} (h : buf.head? = some '#'.toUInt8) :
    (keyText buf).head? = some '#'.toUInt8 := by
  obtain ⟨more, hmore⟩ := keyText_prefix buf
  cases hkey : keyText buf with
  | nil =>
    -- The text before '=' has a '#', so it is not only spaces.
    have hmem : '#'.toUInt8 ∈ buf.takeWhile (· ≠ '='.toUInt8) := by
      obtain ⟨rest, rfl⟩ := List.head?_eq_some_iff.mp h
      rw [List.takeWhile_cons_of_pos (by decide)]
      exact List.mem_cons_self
    unfold keyText at hkey
    exact absurd (List.rdropWhile_eq_nil_iff.mp hkey _ hmem) (by decide)
  | cons c text =>
    rw [← hmore, hkey] at h
    exact h

/-- A lookup of an `int` that the file supplies returns it. -/
theorem getIntegerValueFromCfg_of_firstNumber {key content : List UInt8} {v : Int32}
    (h : firstNumber key content = some v.toInt) :
    (getIntegerValueFromCfg ⟨some content, true, true⟩ key false).1 = v := by
  have hint : InInt v.toInt := ⟨v.minValue_le_toInt, v.toInt_le⟩
  rw [getIntegerValueFromCfg_eq rfl rfl, h]
  dsimp only
  unfold narrowLong
  rw [if_pos ⟨hint.inLong, rfl⟩, Int32.ofInt_toInt]

/-- The line of the key at which a lookup stops is printed with a number. -/
theorem printsNumber_of_readsExact {key content buf : List UInt8} {pre post : List (List UInt8)}
    (h : StopsAt key content pre buf post) (hkey : keyText buf = key)
    (hhash : key.head? ≠ some '#'.toUInt8) : PrintsNumber key key (ofBuffer buf) := by
  obtain ⟨rest, hfills⟩ := exists_fills_of_mem (by decide)
    (show buf ∈ fgetsLines lineMaxChar content by simp [h.buffers])
  have hfound := h.found
  unfold supplied at hfound
  split at hfound
  · next hbegins =>
    rcases equals_cases (ofBuffer buf) with ⟨-, -, hafter⟩ | ⟨t, p, hsplit, hno, -, -⟩
    · rw [lineNumber, hafter] at hfound
      cases hfound
    have hstart := List.isPrefixOf_iff_prefix.mp hbegins
    have hequals : '='.toUInt8 ∈ ofBuffer buf := by
      rw [hsplit]
      exact List.mem_append_right _ List.mem_cons_self
    have hline : ofBuffer buf ≠ [] := List.ne_nil_of_mem hequals
    refine ⟨⟨fun heq ↦ hhash ?_, fun heq ↦ ?_, hstart.isInfix⟩, hstart, .inr (.inl hequals)⟩
    · -- A line that begins with '#' has a key that does.
      rw [← hkey]
      exact keyText_head?_hash (head?_of_ofBuffer heq)
    · have hinside := (hsplit ▸ hfills.ofBuffer hline).inside.1
      rw [hsplit] at heq
      cases t with
      | nil => exact absurd (Option.some.inj heq) (by decide)
      | cons c t =>
        rw [List.cons_append, List.head?_cons] at heq
        exact hinside (by simp [Option.some.inj heq])
  · cases hfound

/-- A buffer that is printed with a number, or one before it, is the first one. -/
theorem PrintsNumber.exists_firstPrinted {key content buf : List UInt8}
    (h : PrintsNumber key key (ofBuffer buf)) (hmem : buf ∈ fgetsLines lineMaxChar content) :
    ∃ pre' buf' post', FirstPrinted key content pre' buf' post' := by
  classical
  obtain ⟨buf', hbuf'⟩ : ∃ buf', (fgetsLines lineMaxChar content).find?
      (fun b ↦ decide (PrintsNumber key key (ofBuffer b))) = some buf' := by
    apply Option.isSome_iff_exists.mp
    rw [List.find?_isSome]
    exact ⟨buf, hmem, by simpa using h⟩
  obtain ⟨hfound, pre', post', hsplit, hpassed⟩ := List.find?_eq_some_iff_append.mp hbuf'
  exact ⟨pre', buf', post', hsplit, fun b hb ↦ by simpa using hpassed b hb, by simpa using hfound⟩

/-- What a lookup finds after a value was set, for every key. -/
theorem firstNumber_rewritten (scan : Sscanf) {key content buf : List UInt8}
    {pre post : List (List UInt8)} (h : FirstPrinted key content pre buf post)
    (hequals : '='.toUInt8 ∉ key) (hhash : key.head? ≠ some '#'.toUInt8)
    (hparsed : ∀ b ∈ fgetsLines lineMaxChar content, ofBuffer b = [] → key ≠ [])
    (hpre : ∀ b ∈ pre, Uncut key b)
    (hlen : ((ofBuffer buf).takeWhile (· ≠ '='.toUInt8)).length ≤ 1011) :
    ∃ y : Int, ∀ v, firstNumber key (rewritten scan key v content) =
      some (if (∀ b ∈ pre, supplied key b = none) ∧
        (ofBuffer buf).takeWhile (· ≠ '='.toUInt8) = key then v.toInt else y) := by
  have hmem : buf ∈ fgetsLines lineMaxChar content := by simp [h.buffers]
  by_cases hne : key = []
  · subst hne
    exact firstNumber_rewriteLines_nil scan h hpre (fun hempty ↦ hparsed buf hmem hempty rfl) hlen
      rfl
  · obtain ⟨rest, hfills⟩ := exists_fills_of_mem (by decide) hmem
    have hline : ofBuffer buf ≠ [] := fun hempty ↦
      hne (List.prefix_nil.mp (hempty ▸ h.found.begins))
    obtain ⟨hstart, hnl⟩ := h.found.text hne hequals (hfills.ofBuffer hline)
    have hnone : ∀ b ∈ pre, supplied key b = none := fun b hb ↦
      supplied_eq_none_of_not_printsNumber hne hhash (fun hmem ↦ hnl (hstart.subset hmem))
        (h.passed b hb)
    obtain ⟨y, hy⟩ := firstNumber_rewriteLines scan hne hequals hhash h hpre hlen
      (s := .initial) (Silent.nil hne)
    refine ⟨y.toInt, fun v ↦ ?_⟩
    unfold rewritten
    rw [hy v]
    by_cases htext : (ofBuffer buf).takeWhile (· ≠ '='.toUInt8) = key
    · rw [if_pos htext, if_pos ⟨hnone, htext⟩]
    · rw [if_neg htext, if_neg fun hboth ↦ htext hboth.2]

/-- Where the first line that is printed with a number has the very key, a lookup returns what
was set. -/
theorem SetsExactly.setGet (scan : Sscanf) {key content : List UInt8}
    (h : SetsExactly key content) : SetGet scan key content := by
  obtain ⟨hhash, hlen, hparsed, pre, buf, post, hfirst, hpre, htext⟩ := h
  intro v flushed _ _
  have hequals : '='.toUInt8 ∉ key := by
    rw [← htext]
    intro hmem
    exact absurd (List.mem_takeWhile_imp hmem) (by simp)
  obtain ⟨y, hy⟩ := firstNumber_rewritten scan hfirst hequals hhash hparsed
    (fun b hb ↦ (hpre b hb).1) (by rw [htext]; exact hlen)
  have hv := hy v
  rw [if_pos ⟨fun b hb ↦ (hpre b hb).2, htext⟩] at hv
  rw [setValueToCfg_ok scan v hparsed]
  exact getIntegerValueFromCfg_of_firstNumber hv

/-- A lookup that returns every value that was set does not return the same for two of them. -/
theorem SetGet.depends {scan : Sscanf} {key content : List UInt8} (h : SetGet scan key content)
    (y : Int32) :
    ¬ ∀ v : Int32, (getIntegerValueFromCfg
      ⟨some (setValueToCfg scan .ok 0 key v content), true, true⟩ key false).1 = y := by
  intro hsame
  have hzero := h 0 0 (by decide) (by decide)
  have hone := h 1 0 (by decide) (by decide)
  rw [hsame] at hzero hone
  exact absurd (hzero.symm.trans hone) (by decide)

/-- Where a lookup returns every value that was set, every line can be parsed. -/
theorem SetGet.parsed {scan : Sscanf} {key content : List UInt8} (h : SetGet scan key content) :
    ∀ b ∈ fgetsLines lineMaxChar content, ofBuffer b = [] → key ≠ [] := by
  by_contra hnot
  refine h.depends (getIntegerValueFromCfg ⟨some content, true, true⟩ key false).1 fun v ↦ ?_
  rw [(setValueToCfg_eq scan .ok key v 0 content).1 fun hcopy ↦ hnot hcopy.1.2.2.parsed]

/-- A lookup returns every value that is set only if the first line that is printed with a number
has the very key. -/
theorem SetGet.setsExactly {scan : Sscanf} {key content : List UInt8}
    (h : SetGet scan key content) (hread : ReadsExact key content)
    (hplain : PlainUpTo key content) : SetsExactly key content := by
  obtain ⟨pre, buf, post, hstop, hkey⟩ := hread
  have hparsed := h.parsed
  have hequals : '='.toUInt8 ∉ key := by
    rw [← hkey]
    intro hmem
    have hmem' := (List.rdropWhile_prefix _ _).subset hmem
    exact absurd (List.mem_takeWhile_imp hmem') (by simp)
  have hhash : key.head? ≠ some '#'.toUInt8 := by
    intro hhash
    refine h.depends (getIntegerValueFromCfg
      ⟨some (rewritten scan key 0 content), true, true⟩ key false).1 fun v ↦ ?_
    rw [setValueToCfg_ok scan v hparsed]
    unfold rewritten
    rw [rewriteLines_comment scan hhash v 0 (by decide)]
  have hprints := printsNumber_of_readsExact hstop hkey hhash
  obtain ⟨pre', buf', post', hfirst⟩ := hprints.exists_firstPrinted
    (show buf ∈ fgetsLines lineMaxChar content by simp [hstop.buffers])
  obtain ⟨hpre, hlen⟩ := hplain pre' buf' post' hfirst
  obtain ⟨y, hy⟩ := firstNumber_rewritten scan hfirst hequals hhash hparsed hpre hlen
  have hexact : (∀ b ∈ pre', supplied key b = none) ∧
      (ofBuffer buf').takeWhile (· ≠ '='.toUInt8) = key := by
    by_contra hother
    simp only [if_neg hother] at hy
    refine h.depends (narrowLong cfgopenOrMemsetError y false).1 fun v ↦ ?_
    rw [setValueToCfg_ok scan v hparsed, getIntegerValueFromCfg_eq rfl rfl, hy v]
  exact ⟨hhash, by rw [← hexact.2]; exact hlen, hparsed, pre', buf', post', hfirst,
    fun b hb ↦ ⟨hpre b hb, hexact.1 b hb⟩, hexact.2⟩

/-- When a lookup returns what was set. It does for every content whose first line that is
printed with a number behind the key has the very key before its `'='`, without spaces, and no
line before it supplies anything or is cut off by a NUL when it is copied. For contents of which
a lookup reads a line of the key, spaces allowed, with no line cut off up to that first one and
room for a number on it, it does so only then. -/
theorem setGet_iff (scan : Sscanf) (key content : List UInt8) :
    (SetsExactly key content → SetGet scan key content) ∧
      (ReadsExact key content → PlainUpTo key content →
        (SetGet scan key content ↔ SetsExactly key content)) := by
  refine ⟨fun h ↦ h.setGet scan, fun hread hplain ↦ ?_⟩
  exact ⟨fun h ↦ h.setsExactly hread hplain, fun h ↦ h.setGet scan⟩

/-- A line without spaces around its `'='` is set. -/
theorem setGet_plain_line :
    SetGet plainSscanf (bytes "balloon_enable") (bytes "balloon_enable=1\n") :=
  (setGet_iff plainSscanf (bytes "balloon_enable") (bytes "balloon_enable=1\n")).1
    ⟨by decide +kernel, by decide +kernel, fun _ _ _ ↦ by decide +kernel, [],
      bytes "balloon_enable=1\n", [], ⟨by decide +kernel, by simp, by decide +kernel,
        by decide +kernel, .inr (.inl (by decide +kernel))⟩, by simp, by decide +kernel⟩

/-- The first line of the shipped `memlinkd.conf`. -/
def spacedLine : List UInt8 := bytes "balloon_target_used_percent = 130\n"

/-- With spaces around the `'='`, as in the shipped file, the value is read and not set. -/
theorem spaced_line_not_set :
    ¬ ∀ (scan : Sscanf) (key content : List UInt8), ReadsExact key content →
      SetGet scan key content := by
  intro h
  have hread : ReadsExact (bytes "balloon_target_used_percent") spacedLine :=
    ⟨[], spacedLine, [], ⟨by decide +kernel, by simp, by decide +kernel⟩, by decide +kernel⟩
  have hset := h plainSscanf _ _ hread 140 0 (by decide) (by decide)
  revert hset
  decide +kernel

end Memlink
