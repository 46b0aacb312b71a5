import Memlink.Balloon.Target
import Memlink.Config.Lookup

/-!
# Loading the configuration

`LoadCfgFile` (`memlink_driver.c:483–552`): five lookups, any of which may abandon the load
through the `goto` of `GET_INT_VALUE_FROM_CFG`, and then five assignments to globals, each
behind its range check. The two percentages among them are what the balloon arithmetic is
configured with.
-/

namespace Memlink

open CString

/-- The five settings. -/
inductive CfgKey where
  | hostInfoPollTime
  | initSemWaitTimeout
  | balloonEnable
  | balloonTargetUsedPercent
  | balloonTargetMaxTotalPercent
  deriving DecidableEq, Repr

/-- The name of a setting in the file. -/
def CfgKey.name : CfgKey → List UInt8
  | .hostInfoPollTime => bytes "host_info_poll_time"
  | .initSemWaitTimeout => bytes "init_sem_wait_timeout"
  | .balloonEnable => bytes "balloon_enable"
  | .balloonTargetUsedPercent => bytes "balloon_target_used_percent"
  | .balloonTargetMaxTotalPercent => bytes "balloon_target_max_total_percent"

/-- The value that stands in for a missing setting: `HOST_INFO_POLL_TIME_DEFAULT`,
`INIT_SEM_WAIT_TIMEOUT_DEFAULT`, `BALLOON_ENABLE_DEFAULT`, `BALLOON_TARGET_USED_PERCENT` and
`BALLOON_TARGET_MAX_TOTAL_PERCENT`. -/
def CfgKey.default : CfgKey → Int32
  | .hostInfoPollTime => 1000
  | .initSemWaitTimeout => 600000
  | .balloonEnable => 1
  | .balloonTargetUsedPercent => 130
  | .balloonTargetMaxTotalPercent => 50

/-- The least accepted value: `MIN_POLL_TIME`, `MIN_TIMEOUT`, 0, `BALLOON_TARGET_PERCENT_MIN`
and 0. -/
def CfgKey.least : CfgKey → Int32
  | .hostInfoPollTime => 100
  | .initSemWaitTimeout => 10000
  | .balloonEnable => 0
  | .balloonTargetUsedPercent => 120
  | .balloonTargetMaxTotalPercent => 0

/-- The greatest accepted value: `MAX_POLL_TIME`, `MAX_TIMEOUT`, 1, `MAX_USED_PERCENT` and
`MAX_PERCENT`. -/
def CfgKey.greatest : CfgKey → Int32
  | .hostInfoPollTime => 6000
  | .initSemWaitTimeout => 3600000
  | .balloonEnable => 1
  | .balloonTargetUsedPercent => 10000
  | .balloonTargetMaxTotalPercent => 100

/-- The range check of a setting. -/
def CfgKey.Accepts (k : CfgKey) (value : Int32) : Prop := value ≥ k.least ∧ value ≤ k.greatest

instance (k : CfgKey) (value : Int32) : Decidable (k.Accepts value) :=
  inferInstanceAs (Decidable (value ≥ k.least ∧ value ≤ k.greatest))

/-- Five `int`s, one for each setting: the globals, and `MemlinkCfg`. -/
structure Settings where
  hostInfoPollTime : Int32
  initSemWaitTimeout : Int32
  balloonEnable : Int32
  balloonTargetUsedPercent : Int32
  balloonTargetMaxTotalPercent : Int32
  deriving DecidableEq, Repr

/-- The value of a setting. -/
def Settings.get (g : Settings) : CfgKey → Int32
  | .hostInfoPollTime => g.hostInfoPollTime
  | .initSemWaitTimeout => g.initSemWaitTimeout
  | .balloonEnable => g.balloonEnable
  | .balloonTargetUsedPercent => g.balloonTargetUsedPercent
  | .balloonTargetMaxTotalPercent => g.balloonTargetMaxTotalPercent

/-- The values the globals are initialised with. -/
def Settings.initial : Settings := ⟨1000, 600000, 1, 130, 50⟩

/-- Every setting passes its range check. -/
def Settings.InRange (g : Settings) : Prop := ∀ k : CfgKey, k.Accepts (g.get k)

/-- A computation that carries `errno` and may be abandoned. -/
abbrev CfgM := OptionT (StateM Bool)

/-- `GET_INT_VALUE_FROM_CFG`: `none` is the `goto CLEANUP`. -/
def getIntValueFromCfg (env : CfgEnv) (k : CfgKey) : CfgM Int32 :=
  OptionT.mk fun errno ↦
    let (tmp, errno) := getIntegerValueFromCfg env k.name errno
    if tmp = cfgopenOrMemsetError then (none, errno)
    else if tmp = -1 then (some k.default, errno)
    else (some tmp, errno)

/-- The five lookups. -/
def readCfg (env : CfgEnv) : CfgM Settings := do
  let hostInfoPollTime ← getIntValueFromCfg env .hostInfoPollTime
  let initSemWaitTimeout ← getIntValueFromCfg env .initSemWaitTimeout
  let balloonEnable ← getIntValueFromCfg env .balloonEnable
  let balloonTargetUsedPercent ← getIntValueFromCfg env .balloonTargetUsedPercent
  let balloonTargetMaxTotalPercent ← getIntValueFromCfg env .balloonTargetMaxTotalPercent
  return ⟨hostInfoPollTime, initSemWaitTimeout, balloonEnable, balloonTargetUsedPercent,
    balloonTargetMaxTotalPercent⟩

/-- One assignment to a global, behind its range check. -/
def install (k : CfgKey) (cfg g : Settings) : Int32 :=
  if k.Accepts (cfg.get k) then cfg.get k else g.get k

/-- `LoadCfgFile`: the globals, the return code and `errno` afterwards. -/
def loadCfgFile (env : CfgEnv) (g : Settings) (errno : Bool) : Settings × Int × Bool :=
  if env.calloc = false then (g, -1, false)
  else
    match (readCfg env).run errno with
    | (none, errno) => (g, -1, errno)
    | (some cfg, errno) =>
      (⟨install .hostInfoPollTime cfg g, install .initSemWaitTimeout cfg g,
        install .balloonEnable cfg g, install .balloonTargetUsedPercent cfg g,
        install .balloonTargetMaxTotalPercent cfg g⟩, 0, errno)

/-! ### What a load does -/

/-- The value a completed load takes for a setting. -/
def settled (env : CfgEnv) (errno : Bool) (k : CfgKey) : Int32 :=
  let tmp := (getIntegerValueFromCfg env k.name errno).1
  if tmp = -1 then k.default else tmp

/-- An abandonable computation goes on from where its first part ends. -/
theorem CfgM.run_bind {α β : Type} (x : CfgM α) (f : α → CfgM β) (e : Bool) :
    (x >>= f).run e =
      match x.run e with
      | (some a, t) => (f a).run t
      | (none, t) => (none, t) := by
  have hrun : (x >>= f).run e =
      (Option.elim (x.run e).1 (pure none) (fun a ↦ (f a).run) : StateM Bool (Option β))
        (x.run e).2 := by
    rw [OptionT.run_bind]
    rfl
  rw [hrun]
  rcases x.run e with ⟨_ | a, t⟩
  · rfl
  · rfl

/-- An abandonable computation ends only if all its parts do. -/
theorem CfgM.run_bind_some {α β : Type} {x : CfgM α} {f : α → CfgM β} {e e' : Bool} {b : β}
    (h : (x >>= f).run e = (some b, e')) :
    ∃ a t, x.run e = (some a, t) ∧ (f a).run t = (some b, e') := by
  rw [CfgM.run_bind] at h
  rcases hx : x.run e with ⟨_ | a, t⟩
  · rw [hx] at h
    cases h
  · rw [hx] at h
    exact ⟨a, t, rfl, h⟩

/-- One lookup of the load: abandoned on the error code, else the settled value. -/
theorem getIntValueFromCfg_run (env : CfgEnv) (k : CfgKey) (e : Bool) :
    (getIntValueFromCfg env k).run e =
      if (getIntegerValueFromCfg env k.name e).1 = cfgopenOrMemsetError then
        (none, (getIntegerValueFromCfg env k.name e).2)
      else (some (settled env e k), e) := by
  have herr := getIntegerValueFromCfg_errno env k.name e
  unfold getIntValueFromCfg settled
  dsimp only [OptionT.run, OptionT.mk]
  generalize getIntegerValueFromCfg env k.name e = r at herr ⊢
  split
  · rfl
  · next hne =>
    rw [herr.resolve_left hne]
    split
    · rfl
    · rfl

private theorem getIntValueFromCfg_some {env : CfgEnv} {k : CfgKey} {e t : Bool} {a : Int32}
    (h : (getIntValueFromCfg env k).run e = (some a, t)) : t = e ∧ a = settled env e k := by
  rw [getIntValueFromCfg_run] at h
  split at h
  · cases h
  · obtain ⟨ha, ht⟩ := Prod.mk.inj h
    exact ⟨ht.symm, (Option.some.inj ha).symm⟩

/-- If no lookup abandons the load, every one of them returned from the `errno` before it. -/
theorem readCfg_reads {env : CfgEnv} {e e' : Bool} {cfg : Settings}
    (h : (readCfg env).run e = (some cfg, e')) (k : CfgKey) :
    (getIntValueFromCfg env k).run e = (some (cfg.get k), e) := by
  unfold readCfg at h
  obtain ⟨a, _, ha, h⟩ := CfgM.run_bind_some h
  obtain ⟨b, _, hb, h⟩ := CfgM.run_bind_some h
  obtain ⟨c, _, hc, h⟩ := CfgM.run_bind_some h
  obtain ⟨d, _, hd, h⟩ := CfgM.run_bind_some h
  obtain ⟨f, _, hf, h⟩ := CfgM.run_bind_some h
  obtain ⟨hcfg, _⟩ := Prod.mk.inj h
  obtain rfl := Option.some.inj hcfg
  obtain ⟨rfl, _⟩ := getIntValueFromCfg_some ha
  obtain ⟨rfl, _⟩ := getIntValueFromCfg_some hb
  obtain ⟨rfl, _⟩ := getIntValueFromCfg_some hc
  obtain ⟨rfl, _⟩ := getIntValueFromCfg_some hd
  obtain ⟨rfl, _⟩ := getIntValueFromCfg_some hf
  cases k with
  | hostInfoPollTime => exact ha
  | initSemWaitTimeout => exact hb
  | balloonEnable => exact hc
  | balloonTargetUsedPercent => exact hd
  | balloonTargetMaxTotalPercent => exact hf

/-- If no lookup abandons the load, every setting is read as it is on its own. -/
theorem readCfg_some {env : CfgEnv} {e e' : Bool} {cfg : Settings}
    (h : (readCfg env).run e = (some cfg, e')) (k : CfgKey) : cfg.get k = settled env e k :=
  (getIntValueFromCfg_some (readCfg_reads h k)).2

/-- The lookups are completed exactly when none of them returns the error code. -/
theorem readCfg_isSome_iff (env : CfgEnv) (e : Bool) :
    ((readCfg env).run e).1.isSome = true ↔
      ∀ k : CfgKey, (getIntegerValueFromCfg env k.name e).1 ≠ cfgopenOrMemsetError := by
  constructor
  · intro h k herr
    obtain ⟨cfg, hcfg⟩ := Option.isSome_iff_exists.mp h
    have hk := readCfg_reads (Prod.ext hcfg rfl) k
    rw [getIntValueFromCfg_run, if_pos herr] at hk
    cases hk
  · intro h
    unfold readCfg
    simp only [CfgM.run_bind, getIntValueFromCfg_run, if_neg (h _)]
    rfl

/-- Every default passes its own range check. -/
theorem CfgKey.accepts_default (k : CfgKey) : k.Accepts k.default := by
  cases k <;> decide

/-- The two outcomes of a load. -/
theorem loadCfgFile_cases (env : CfgEnv) (g : Settings) (errno : Bool) :
    (loadCfgFile env g errno).2.1 = -1 ∧ (loadCfgFile env g errno).1 = g ∨
      (loadCfgFile env g errno).2.1 = 0 ∧ ∀ k, (loadCfgFile env g errno).1.get k =
        if k.Accepts (settled env errno k) then settled env errno k else g.get k := by
  unfold loadCfgFile
  split
  · exact .inl ⟨rfl, rfl⟩
  · split
    · exact .inl ⟨rfl, rfl⟩
    · next cfg _ hread =>
      have hcfg := readCfg_some hread
      refine .inr ⟨rfl, fun k ↦ ?_⟩
      rw [← hcfg k]
      cases k <;> rfl

/-- Globals in range stay in range. -/
theorem loadCfgFile_inRange (env : CfgEnv) {g : Settings} (errno : Bool) (h : g.InRange) :
    (loadCfgFile env g errno).1.InRange := by
  rcases loadCfgFile_cases env g errno with ⟨_, hg⟩ | ⟨_, hg⟩
  · rw [hg]
    exact h
  · intro k
    rw [hg k]
    split
    · next hk => exact hk
    · exact h k

/-- A load is range-safe and all-or-nothing. For every content of the configuration file, or
none, every outcome of `calloc` and `memset_s`, every `errno` and all globals in range: they
stay in range; a load that returns -1 leaves all five; and a load that returns 0, the only
other code, gives each one what its lookup returns if that is in range, its default if the
lookup returned -1, and leaves it otherwise. -/
theorem loadCfgFile_safe (env : CfgEnv) (g : Settings) (errno : Bool) (h : g.InRange) :
    (loadCfgFile env g errno).1.InRange ∧
      ((loadCfgFile env g errno).2.1 = -1 → (loadCfgFile env g errno).1 = g) ∧
      ((loadCfgFile env g errno).2.1 = -1 ∨ (loadCfgFile env g errno).2.1 = 0) ∧
      ((loadCfgFile env g errno).2.1 = 0 → ∀ k : CfgKey,
        let value := (getIntegerValueFromCfg env k.name errno).1
        (k.Accepts value → (loadCfgFile env g errno).1.get k = value) ∧
        (value = -1 → (loadCfgFile env g errno).1.get k = k.default) ∧
        (¬ k.Accepts value → value ≠ -1 → (loadCfgFile env g errno).1.get k = g.get k)) := by
  refine ⟨loadCfgFile_inRange env errno h, ?_⟩
  rcases loadCfgFile_cases env g errno with ⟨hret, hg⟩ | ⟨hret, hg⟩
  · rw [hret, hg]
    exact ⟨fun _ ↦ rfl, .inl rfl, fun h0 ↦ absurd h0 (by decide)⟩
  · refine ⟨fun h1 ↦ ?_, .inr hret, fun _ k ↦ ?_⟩
    · rw [hret] at h1
      exact absurd h1 (by decide)
    · rw [hg k]
      unfold settled
      dsimp only
      generalize (getIntegerValueFromCfg env k.name errno).1 = value
      have hmissing : ¬ k.Accepts (-1) := by cases k <;> decide
      refine ⟨fun hk ↦ ?_, fun hv ↦ ?_, fun hk hv ↦ ?_⟩
      · have hv : value ≠ -1 := fun hv ↦ hmissing (hv ▸ hk)
        rw [if_neg hv, if_pos hk]
      · rw [if_pos hv, if_pos k.accepts_default]
      · rw [if_neg hv, if_neg hk]

/-- The globals start in range. -/
theorem Settings.initial_inRange : Settings.initial.InRange := by
  intro k
  cases k <;> decide

/-- A file with one setting in range and one out of it. -/
def sampleEnv : CfgEnv :=
  ⟨some (bytes "balloon_enable=0\nballoon_target_used_percent = 9\n"), true, true⟩

/-- The first setting is installed, the second one is not, and a missing one gets its default. -/
theorem loadCfgFile_safe_sample :
    (loadCfgFile sampleEnv Settings.initial false).1.get .balloonEnable = 0 ∧
      (loadCfgFile sampleEnv Settings.initial false).1.get .balloonTargetUsedPercent = 130 ∧
      (loadCfgFile sampleEnv Settings.initial false).1.get .hostInfoPollTime = 1000 := by
  have hret : (loadCfgFile sampleEnv Settings.initial false).2.1 = 0 := by decide +kernel
  have hsafe := (loadCfgFile_safe sampleEnv Settings.initial false
    Settings.initial_inRange).2.2.2 hret
  have henable : (getIntegerValueFromCfg sampleEnv
      CfgKey.balloonEnable.name false).1 = 0 := by decide +kernel
  have hused : (getIntegerValueFromCfg sampleEnv
      CfgKey.balloonTargetUsedPercent.name false).1 = 9 := by decide +kernel
  have hpoll : (getIntegerValueFromCfg sampleEnv
      CfgKey.hostInfoPollTime.name false).1 = -1 := by decide +kernel
  refine ⟨?_, ?_, (hsafe .hostInfoPollTime).2.1 hpoll⟩
  · rw [(hsafe .balloonEnable).1 (by rw [henable]; decide), henable]
  · exact (hsafe .balloonTargetUsedPercent).2.2 (by rw [hused]; decide) (by rw [hused]; decide)

/-! ### Values that stop the daemon -/

/-- Every number on a line of one of the five settings fits into an `int`. -/
def NumbersFit (content : List UInt8) : Prop :=
  ∀ buf ∈ fgetsLines lineMaxChar content, ∀ (k : CfgKey) (x : Int),
    supplied k.name buf = some x → InInt x

private theorem loadCfgFile_zero_iff (content : List UInt8) (g : Settings) :
    (loadCfgFile ⟨some content, true, true⟩ g false).2.1 = 0 ↔
      ((readCfg ⟨some content, true, true⟩).run false).1.isSome = true := by
  unfold loadCfgFile
  dsimp only
  rw [if_neg (by decide)]
  rcases (readCfg ⟨some content, true, true⟩).run false with ⟨_ | cfg, errno⟩
  · simp
  · simp

private theorem lookup_ne_error_iff (content : List UInt8) (key : List UInt8) :
    (getIntegerValueFromCfg ⟨some content, true, true⟩ key false).1 ≠ cfgopenOrMemsetError ↔
      ∀ x, firstNumber key content = some x → InLong x ∧ Int32.ofInt x ≠ cfgopenOrMemsetError := by
  rw [getIntegerValueFromCfg_eq rfl rfl]
  cases firstNumber key content with
  | none => simp [cfgopenOrMemsetError]
  | some x =>
    by_cases hin : InLong x
    · simp [narrowLong, hin]
    · simp [narrowLong, hin]

/-- When a readable file lets the daemon start. Every load, from a clear `errno` and with
`calloc` and `memset_s` working, returns 0 exactly when no setting stops at a number that is
delivered as the error code -2; if the numbers on the lines of the settings fit into an `int`,
that is exactly when no setting stops at -2. -/
theorem loadCfgFile_accepts_iff (content : List UInt8) (g : Settings) :
    ((loadCfgFile ⟨some content, true, true⟩ g false).2.1 = 0 ↔
      ∀ (k : CfgKey) (x : Int), firstNumber k.name content = some x →
        InLong x ∧ Int32.ofInt x ≠ cfgopenOrMemsetError) ∧
    (NumbersFit content → ((loadCfgFile ⟨some content, true, true⟩ g false).2.1 = 0 ↔
      ∀ k : CfgKey, firstNumber k.name content ≠ some (-2))) := by
  have hload : (loadCfgFile ⟨some content, true, true⟩ g false).2.1 = 0 ↔
      ∀ (k : CfgKey) (x : Int), firstNumber k.name content = some x →
        InLong x ∧ Int32.ofInt x ≠ cfgopenOrMemsetError := by
    rw [loadCfgFile_zero_iff, readCfg_isSome_iff]
    exact forall_congr' fun k ↦ lookup_ne_error_iff content k.name
  refine ⟨hload, fun hfit ↦ hload.trans (forall_congr' fun k ↦ ?_)⟩
  have hint : ∀ x, firstNumber k.name content = some x → InInt x := by
    intro x hx
    obtain ⟨buf, hbuf, hs⟩ := List.exists_of_findSome?_eq_some hx
    exact hfit buf hbuf k x hs
  constructor
  · intro h heq
    exact (h _ heq).2 rfl
  · intro hne x hx
    refine ⟨(hint x hx).inLong, fun herr ↦ hne ?_⟩
    rw [hx, ← toInt_ofInt_of_inInt (hint x hx), herr]
    rfl

/-- `memlinkd.conf`. -/
def shippedFile : List UInt8 :=
  bytes "balloon_target_used_percent = 130\nballoon_target_max_total_percent = 50\n"

/-- The shipped configuration lets the daemon start. -/
theorem loadCfgFile_accepts_shipped :
    (loadCfgFile ⟨some shippedFile, true, true⟩ Settings.initial false).2.1 = 0 := by
  have hread : ∀ k : CfgKey, firstNumber k.name shippedFile = none ∨
      firstNumber k.name shippedFile = some 130 ∨ firstNumber k.name shippedFile = some 50 := by
    intro k
    cases k <;> decide +kernel
  refine (loadCfgFile_accepts_iff shippedFile Settings.initial).1.mpr fun k x hx ↦ ?_
  rcases hread k with hk | hk | hk
  · rw [hk] at hx
    cases hx
  · obtain rfl := Option.some.inj (hk.symm.trans hx)
    decide
  · obtain rfl := Option.some.inj (hk.symm.trans hx)
    decide

/-- A file that sets one value to -2. -/
def minusTwoFile : List UInt8 := bytes "balloon_enable=-2\n"

/-- The value -2 is taken for the error code: the load fails, where -3 would be ignored. -/
theorem minusTwo_fatal :
    ¬ ∀ content g, NumbersFit content →
      (loadCfgFile ⟨some content, true, true⟩ g false).2.1 = 0 := by
  intro h
  have hline : fgetsLines lineMaxChar minusTwoFile = [minusTwoFile] := by decide +kernel
  have hread : ∀ k : CfgKey, supplied k.name minusTwoFile = none ∨
      supplied k.name minusTwoFile = some (-2) := by
    intro k
    cases k <;> decide +kernel
  have hfit : NumbersFit minusTwoFile := by
    intro buf hbuf k x hx
    rw [hline, List.mem_singleton] at hbuf
    rw [hbuf] at hx
    rcases hread k with hk | hk
    · rw [hk] at hx
      cases hx
    · obtain rfl := Option.some.inj (hk.symm.trans hx)
      decide
  have hret := h minusTwoFile Settings.initial hfit
  revert hret
  decide +kernel

/-! ### The balloon configuration -/

/-- The percentages that the balloon thread reads. -/
def Settings.balloonConfig (g : Settings) (h : g.InRange) : BalloonConfig where
  usedPercent := g.balloonTargetUsedPercent
  maxTotalPercent := g.balloonTargetMaxTotalPercent
  usedPercent_range :=
    ⟨Int32.le_iff_toInt_le.mp (h .balloonTargetUsedPercent).1,
      Int32.le_iff_toInt_le.mp (h .balloonTargetUsedPercent).2⟩
  maxTotalPercent_range :=
    ⟨Int32.le_iff_toInt_le.mp (h .balloonTargetMaxTotalPercent).1,
      Int32.le_iff_toInt_le.mp (h .balloonTargetMaxTotalPercent).2⟩

/-- The percentages the daemon runs with after a load at its start. -/
def loadedConfig (env : CfgEnv) (errno : Bool) : BalloonConfig :=
  (loadCfgFile env Settings.initial errno).1.balloonConfig
    (loadCfgFile_inRange env errno Settings.initial_inRange)

end Memlink
