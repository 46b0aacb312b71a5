import Memlink.Base.StringScan
import Memlink.Util.Process

/-!
# The search for tokens, byte by byte

`ContainOneOfTokens` (`util.c:455–483`) with the index `i` and the pointer `ptr` as the source
keeps them, over memory in which every read is checked: the bytes at `strLine` and those at
`tokens`. It refines `containOneOfTokens`, which looks at whole strings.
-/

namespace Memlink

open CString

/-- The inner loop. `ptr` is an offset from `strLine`. -/
def scanTokenAt (strLine token : List UInt8) (count i ptr : Nat) : Option Bool :=
  if i < count then
    match strlen (strLine.drop ptr) with
    | none => none
    | some len =>
      if len = 0 then scanTokenAt strLine token count (i + 1) (ptr + 1)
      else
        match strstr token (strLine.drop ptr) with
        | none => none
        | some true => some true
        | some false => scanTokenAt strLine token count (i + len) (ptr + len)
  else some false
termination_by count - i

/-- The outer loop, with the memory at `nextToken`. -/
def containOneOfTokensAt (strLine : List UInt8) (count : Nat) (tokens : List UInt8) :
    Option Int :=
  match _h : strtokS ':'.toUInt8 tokens with
  | none => none
  | some none => some 0
  | some (some (token, nextToken)) =>
    match scanTokenAt strLine token count 0 0 with
    | none => none
    | some true => some 1
    | some false => containOneOfTokensAt strLine count nextToken
termination_by tokens.length
decreasing_by exact strtokS_length_lt _h

/-- The index and the pointer stay in step, and the loop reads strings only. -/
theorem scanTokenAt_eq {token : List UInt8} (hnul : 0 ∉ token) (data rest : List UInt8) {i : Nat}
    (hi : i ≤ data.length) :
    scanTokenAt (data ++ 0 :: rest) token data.length i i =
      some (scanToken token data.length i ((data ++ 0 :: rest).drop i)) := by
  induction hleft : data.length - i using Nat.strongRecOn generalizing i with
  | ind n ih =>
    rw [scanTokenAt, scanToken]
    by_cases hrun : i < data.length
    · obtain ⟨seg, tail, hdrop, -, -, hbuf⟩ := exists_segment (data.drop i) rest
      rw [← List.drop_append_of_le_length hi] at hbuf
      have hmem : 0 ∈ (data ++ 0 :: rest).drop i := by
        rw [List.drop_append_of_le_length hi]
        simp
      have hlen : seg.length ≤ data.length - i := by
        have hsum := congrArg List.length hdrop
        rw [List.length_drop, List.length_append] at hsum
        omega
      rw [if_pos hrun, if_pos hrun, strlen_of_mem hmem, strstr_of_mem hmem hnul, hbuf]
      dsimp only
      by_cases hempty : seg.length = 0
      · rw [if_pos hempty, if_pos hempty, List.drop_drop, ih (data.length - (i + 1)) (by omega)
          (by omega) rfl]
      · rw [if_neg hempty, if_neg hempty]
        by_cases hfound : token <:+: seg
        · simp [hfound]
        · simp only [hfound, decide_false, if_false]
          rw [List.drop_drop, ih (data.length - (i + seg.length)) (by omega) (by omega) rfl]
    · rw [if_neg hrun, if_neg hrun]

/-- Byte by byte, the search reads no further than the NUL behind each string, and it returns
what the search over whole strings does. -/
theorem containOneOfTokensAt_eq (data rest : List UInt8) {text : List UInt8} (hnul : 0 ∉ text)
    (more : List UInt8) :
    containOneOfTokensAt (data ++ 0 :: rest) data.length (text ++ 0 :: more) =
      some (containOneOfTokens (data ++ 0 :: rest) data.length text) := by
  induction hlen : text.length using Nat.strongRecOn generalizing text with
  | ind n ih =>
    unfold containOneOfTokensAt containOneOfTokens
    have hsep : ':'.toUInt8 ≠ 0 := by decide
    rcases strtokS_cases hnul more hsep with
      ⟨hnone, hparts⟩ | ⟨token, next, hsome, hparts, hless, -, htoken, hnext⟩
    · rw [hnone, hparts]
      rfl
    · rw [hsome, hparts]
      dsimp only
      rw [scanTokenAt_eq htoken data rest (Nat.zero_le _), List.drop_zero, List.any_cons,
        ih next.length (by omega) hnext rfl]
      cases scanToken token data.length 0 (data ++ 0 :: rest) with
      | true => rfl
      | false => rfl

/-- A part of the token string is found exactly inside the segments of the data. -/
theorem scanToken_iff {part : List UInt8} (hne : part ≠ []) (hnul : 0 ∉ part)
    (data rest : List UInt8) :
    scanToken part data.length 0 (data ++ 0 :: rest) = true ↔
      ∃ seg ∈ data.splitOn 0, part <:+: seg := by
  rw [scanToken_eq hne hnul (Nat.zero_add data.length), decide_eq_true_eq,
    List.exists_infix_splitOn_iff hnul]

/-- The search over whole strings finds the parts of the tokens in the segments of the data. -/
theorem containOneOfTokens_eq_one_iff (data rest : List UInt8) {text : List UInt8}
    (hnul : 0 ∉ text) :
    containOneOfTokens (data ++ 0 :: rest) data.length text = 1 ↔
      ∃ part ∈ text.splitOn ':'.toUInt8, part ≠ [] ∧ ∃ seg ∈ data.splitOn 0, part <:+: seg := by
  have hzero : ∀ part ∈ text.splitOn ':'.toUInt8, 0 ∉ part := fun part hpart hmem ↦
    hnul (List.mem_of_mem_splitOn (by decide) hpart hmem)
  have hone : containOneOfTokens (data ++ 0 :: rest) data.length text = 1 ↔
      (text.parts ':'.toUInt8).any (fun part ↦
        scanToken part data.length 0 (data ++ 0 :: rest)) = true := by
    unfold containOneOfTokens
    split
    · next hfound => simp [hfound]
    · next hmissing => simp [hmissing]
  rw [hone, List.any_eq_true]
  constructor
  · rintro ⟨part, hmem, hfound⟩
    obtain ⟨hpart, hne⟩ := List.mem_parts.mp hmem
    exact ⟨part, hpart, hne, (scanToken_iff hne (hzero part hpart) data rest).mp hfound⟩
  · rintro ⟨part, hpart, hne, hseg⟩
    exact ⟨part, List.mem_parts.mpr ⟨hpart, hne⟩,
      (scanToken_iff hne (hzero part hpart) data rest).mpr hseg⟩

/-- The result is 1 or 0. -/
theorem containOneOfTokens_eq_one_or_zero (strLine : List UInt8) (count : Nat)
    (tokens : List UInt8) :
    containOneOfTokens strLine count tokens = 1 ∨ containOneOfTokens strLine count tokens = 0 := by
  unfold containOneOfTokens
  split
  · exact .inl rfl
  · exact .inr rfl

/-- What stands behind the NUL does not matter. -/
theorem containOneOfTokens_append (data rest : List UInt8) {text : List UInt8} (hnul : 0 ∉ text) :
    containOneOfTokens (data ++ 0 :: rest) data.length text =
      containOneOfTokens (data ++ [0]) data.length text := by
  have hiff := (containOneOfTokens_eq_one_iff data rest hnul).trans
    (containOneOfTokens_eq_one_iff data [] hnul).symm
  have hleft := containOneOfTokens_eq_one_or_zero (data ++ 0 :: rest) data.length text
  have hright := containOneOfTokens_eq_one_or_zero (data ++ [0]) data.length text
  omega

/-- A process passes a device through if one of its arguments, as far as they are read, names
one of the two drivers. -/
theorem checkVMHasPassthroughDev_iff {env : FileEnv} {vmName : Option (List UInt8)} {p : Int}
    {line : List UInt8} (hpid : env.pidNumber vmName = some p) (hpos : 0 < p) (hint : InInt p)
    (hline : env.line (cmdlinePath (Int32.ofInt p)) memlinkArgMax = some line) :
    (checkVMHasPassthroughDev env vmName false).1 = 1 ↔
      ∃ seg ∈ line.splitOn 0, bytes "vfio-pci" <:+: seg ∨ bytes "pci-assign" <:+: seg := by
  have hsplit : (bytes "vfio-pci:pci-assign").splitOn ':'.toUInt8 =
      [bytes "vfio-pci", bytes "pci-assign"] := by decide +kernel
  have hvfio : bytes "vfio-pci" ≠ [] := by decide +kernel
  have hassign : bytes "pci-assign" ≠ [] := by decide +kernel
  unfold checkVMHasPassthroughDev
  rw [checkString_of_line hpid hpos hint hline (by decide +kernel)]
  dsimp only
  rw [containOneOfTokens_eq_one_iff line [] (by decide +kernel), hsplit]
  simp only [List.mem_cons, List.not_mem_nil, or_false, exists_eq_or_imp, exists_eq_left, hvfio,
    hassign, ne_eq, not_false_eq_true, true_and, and_or_left, exists_or]

/-- The token search is exact. For every buffer of bytes before a NUL and every token string,
the loops end, whatever stands behind the two NULs and also if nothing does, so that no read
passes them; and they return 1 exactly when a non-empty part of the token string, between
colons, occurs inside one segment of the buffer, between NULs, and 0 otherwise. -/
theorem containOneOfTokens_exact (data tokens : List UInt8) :
    ∃ ret : Int,
      (∀ rest more, containOneOfTokensAt (data ++ 0 :: rest) data.length (tokens ++ 0 :: more) =
        some ret) ∧
      containOneOfTokens (data ++ [0]) data.length (ofBuffer tokens) = ret ∧
      (ret = 1 ↔ ∃ part ∈ (ofBuffer tokens).splitOn ':'.toUInt8, part ≠ [] ∧
        ∃ seg ∈ data.splitOn 0, part <:+: seg) ∧
      (ret = 1 ∨ ret = 0) := by
  have hnul := zero_notMem_ofBuffer tokens
  refine ⟨containOneOfTokens (data ++ [0]) data.length (ofBuffer tokens), ?_, rfl,
    containOneOfTokens_eq_one_iff data [] hnul, containOneOfTokens_eq_one_or_zero _ _ _⟩
  intro rest more
  obtain ⟨after, hafter⟩ := exists_ofBuffer_append tokens more
  rw [hafter, containOneOfTokensAt_eq data rest hnul after,
    containOneOfTokens_append data rest hnul]

end Memlink
