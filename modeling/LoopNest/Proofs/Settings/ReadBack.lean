import LoopNest.Proofs.Settings.Assignments
import LoopNest.Proofs.Settings.Sections

/-! Reading settings back. A file of well-formed lines gives the last value assigned to each field
and the default of the others; any other text either gives some settings or the error of the first
faulty line of a launch section. -/

namespace LoopNest

/-- What the lines of a file ask for, in their order. All but headers are foreign outside of launch
sections, and comments and well-formed assignments are inside; the flag says where the first line
stands. -/
inductive Configures : Bool → List TextLine → List Setting → Prop where
  | nil {inLaunch : Bool} : Configures inLaunch [] []
  | idle {inLaunch : Bool} {line : TextLine} {lines : List TextLine} {settings : List Setting}
    (h : IsIdle line.val) (hrest : Configures inLaunch lines settings) :
    Configures inLaunch (line :: lines) settings
  | header {inLaunch : Bool} {line : TextLine} {name : List Char} {lines : List TextLine}
    {settings : List Setting} (h : IsHeader line.val name)
    (hrest : Configures (name = "launch".toList) lines settings) :
    Configures inLaunch (line :: lines) settings
  | foreign {line : TextLine} {lines : List TextLine} {settings : List Setting}
    (h : ∀ name, ¬IsHeader line.val name) (hrest : Configures false lines settings) :
    Configures false (line :: lines) settings
  | setting {line : TextLine} {key value : List Char} {setting : Setting} {lines : List TextLine}
    {settings : List Setting} (h : Assigns line.val key value) (hasks : Asks key value setting)
    (hrest : Configures true lines settings) :
    Configures true (line :: lines) (setting :: settings)

namespace Setting

def workers? : Setting → Option UInt64
  | workers n _ => some n
  | _ => none

def unrollLimit? : Setting → Option UInt64
  | unrollLimit n => some n
  | _ => none

def arityWarnings? : Setting → Option Bool
  | arityWarnings flag => some flag
  | _ => none

end Setting

/-- The last value asked for each field, or the default when there is none. -/
structure Leaves (settings : List Setting) (s : LaunchSettings) : Prop where
  workers : s.workers = (settings.filterMap Setting.workers?).getLast?
  unrollLimit : s.unrollLimit =
    (settings.filterMap Setting.unrollLimit?).getLast?.getD ({} : LaunchSettings).unrollLimit
  arityWarnings : s.arityWarnings =
    (settings.filterMap Setting.arityWarnings?).getLast?.getD ({} : LaunchSettings).arityWarnings

/-- The error of the first faulty line in a launch section. -/
def FirstFault (lines : List TextLine) (error : SettingsError) : Prop :=
  ∃ before line after, lines = before ++ line :: after ∧ InLaunch before ∧ FaultyLine line error ∧
    ∀ earlier other since, before = earlier ++ other :: since → InLaunch earlier →
      ∀ error, ¬FaultyLine other error

theorem leaves_foldl_apply (settings : List Setting) :
    Leaves settings (settings.foldl Setting.apply {}) := by
  induction settings using List.reverseRecOn with
  | nil => exact ⟨rfl, rfl, rfl⟩
  | append_singleton settings setting ih =>
    rw [List.foldl_concat]
    obtain ⟨hworkers, hunrollLimit, harityWarnings⟩ := ih
    cases setting with
    | workers n hn =>
      constructor
      · simp [Setting.apply, Setting.workers?]
      · simpa [Setting.apply, Setting.unrollLimit?] using hunrollLimit
      · simpa [Setting.apply, Setting.arityWarnings?] using harityWarnings
    | unrollLimit n =>
      constructor
      · simpa [Setting.apply, Setting.workers?] using hworkers
      · simp [Setting.apply, Setting.unrollLimit?]
      · simpa [Setting.apply, Setting.arityWarnings?] using harityWarnings
    | arityWarnings flag =>
      constructor
      · simpa [Setting.apply, Setting.workers?] using hworkers
      · simpa [Setting.apply, Setting.unrollLimit?] using hunrollLimit
      · simp [Setting.apply, Setting.arityWarnings?]

theorem Leaves.unique {settings : List Setting} {s t : LaunchSettings} (hs : Leaves settings s)
    (ht : Leaves settings t) : s = t := by
  cases s
  cases t
  congr 1
  · exact hs.workers.trans ht.workers.symm
  · exact hs.unrollLimit.trans ht.unrollLimit.symm
  · exact hs.arityWarnings.trans ht.arityWarnings.symm

namespace SettingsReader

variable {lines before : List TextLine} {settings : List Setting} {r : SettingsReader}
  {inLaunch : Bool} {error : SettingsError}

theorem readLines_of_configures (h : Configures inLaunch lines settings)
    (hcurrent : inLaunch = decide (r.current = "launch".toList)) :
    ∃ current, r.readLines lines = .ok ⟨current, settings.foldl Setting.apply r.settings⟩ := by
  induction h generalizing r with
  | nil => exact ⟨r.current, rfl⟩
  | idle h _ ih =>
    rw [readLines_cons, step_of_isIdle h]
    exact ih hcurrent
  | header h _ ih =>
    rw [readLines_cons, step_of_isHeader h]
    exact ih rfl
  | foreign h _ ih =>
    rw [readLines_cons, step_of_foreign h (of_decide_eq_false hcurrent.symm)]
    exact ih hcurrent
  | setting h hasks _ ih =>
    rw [readLines_cons, step_of_asks (of_decide_eq_true hcurrent.symm) h hasks]
    exact ih hcurrent

theorem step_eq_error_iff {line : TextLine} : r.step (.ofText line.val) = .error error ↔
    r.current = "launch".toList ∧ FaultyLine line error := by
  refine ⟨fun h => ?_, fun ⟨hlaunch, hfaulty⟩ => step_of_faultyLine hlaunch hfaulty⟩
  have hsteps := h ▸ r.steps_step line
  cases hsteps with
  | faulty hlaunch hfaulty => exact ⟨hlaunch, hfaulty⟩

theorem exists_faultyLine_of_readLines (h : start.readLines lines = .error error) :
    ∃ before line after r, lines = before ++ line :: after ∧ start.readLines before = .ok r ∧
      InLaunch before ∧ FaultyLine line error := by
  obtain ⟨before, line, after, r, hlines, hbefore, hstep⟩ := foldlM_eq_error_iff.mp h
  obtain ⟨hlaunch, hfaulty⟩ := step_eq_error_iff.mp hstep
  exact ⟨before, line, after, r, hlines, hbefore, (current_of_readLines hbefore).mp hlaunch, hfaulty⟩

theorem readLines_of_faultyLine {line : TextLine} {after : List TextLine}
    (hbefore : start.readLines before = .ok r) (hlaunch : InLaunch before)
    (hfaulty : FaultyLine line error) :
    start.readLines (before ++ line :: after) = .error error :=
  foldlM_eq_error_iff.mpr ⟨before, line, after, r, rfl, hbefore,
    step_of_faultyLine ((current_of_readLines hbefore).mpr hlaunch) hfaulty⟩

theorem readLines_eq_error_iff : start.readLines lines = .error error ↔ FirstFault lines error := by
  constructor
  · intro h
    obtain ⟨before, line, after, r, hlines, hbefore, hlaunch, hfaulty⟩ :=
      exists_faultyLine_of_readLines h
    refine ⟨before, line, after, hlines, hlaunch, hfaulty, ?_⟩
    -- The lines before have been read, so none of them is at fault.
    rintro earlier other since rfl hearlier found hother
    rw [readLines_append, bind_eq_ok_iff] at hbefore
    obtain ⟨mid, hmid, hsince⟩ := hbefore
    rw [readLines_cons, step_of_faultyLine ((current_of_readLines hmid).mpr hearlier) hother]
      at hsince
    cases hsince
  · rintro ⟨before, line, after, rfl, hlaunch, hfaulty, hfirst⟩
    cases hbefore : start.readLines before with
    | ok r => exact readLines_of_faultyLine hbefore hlaunch hfaulty
    | error found =>
      obtain ⟨earlier, other, since, -, hlines, -, hearlier, hother⟩ :=
        exists_faultyLine_of_readLines hbefore
      exact absurd hother (hfirst earlier other since hlines hearlier found)

theorem workers_of_step {line : TextLine} {r' : SettingsReader}
    (h : r.step (.ofText line.val) = .ok r') (hworkers : r.settings.workers ≠ some 0) :
    r'.settings.workers ≠ some 0 := by
  have hsteps := h ▸ r.steps_step line
  cases hsteps with
  | header | kept => exact hworkers
  | @asked key value setting =>
    cases setting with
    | workers n hn => exact fun heq => hn (Option.some_inj.mp heq)
    | unrollLimit | arityWarnings => exact hworkers

theorem workers_of_readLines (h : start.readLines lines = .ok r) : r.settings.workers ≠ some 0 :=
  foldlM_invariant (P := fun _ r => r.settings.workers ≠ some 0) h (by decide)
    fun _ _ _ _ hworkers hstep => workers_of_step hstep hworkers

end SettingsReader

namespace LaunchSettings

theorem exists_line {known : SettingsKey} {value : List Char} {setting : Setting}
    (h : Asks known.name.toList value setting) :
    ∃ line : TextLine, Assigns line.val known.name.toList value := by
  have hnone : ∀ c ∈ ([] : List Char), isBlank c := by simp
  have hassigns := h.assigns (.inl rfl) hnone hnone hnone hnone (.inl rfl)
  have hknown : '\n' ∉ known.name.toList := by cases known <;> decide
  have hvalue : '\n' ∉ value := fun hmem => absurd (h.char hmem).1 (by decide)
  exact ⟨⟨_, by simp [hknown, hvalue]⟩, hassigns⟩

theorem parse_of_configures {lines : List TextLine} {settings : List Setting} {s : LaunchSettings}
    (h : Configures false lines settings) (hleaves : Leaves settings s) :
    parse (fileText lines) = .ok s := by
  obtain ⟨current, hread⟩ := SettingsReader.readLines_of_configures (r := .start) h rfl
  rw [parse_fileText, hread, hleaves.unique (leaves_foldl_apply settings)]
  rfl

theorem exists_parse_eq_ok {s : LaunchSettings} (h : s.workers ≠ some 0) :
    ∃ content, parse content = .ok s := by
  obtain ⟨header, hheader⟩ : ∃ line : TextLine, IsHeader line.val "launch".toList :=
    ⟨⟨"[launch]".toList, by decide⟩, SettingsLine.ofText_eq_header_iff.mp rfl⟩
  obtain ⟨limitLine, hlimit⟩ := exists_line (.unrollLimit (isCount_toDigits s.unrollLimit))
  obtain ⟨flagLine, hflag⟩ := exists_line (.arityWarnings s.arityWarnings)
  have hrest : Configures true [limitLine, flagLine]
      [.unrollLimit s.unrollLimit, .arityWarnings s.arityWarnings] :=
    .setting hlimit (.unrollLimit (isCount_toDigits s.unrollLimit))
      (.setting hflag (.arityWarnings s.arityWarnings) .nil)
  cases hworkers : s.workers with
  | none =>
    exact ⟨_, parse_of_configures (.header hheader hrest) ⟨hworkers, rfl, rfl⟩⟩
  | some n =>
    have hn : n ≠ 0 := fun heq => h (heq ▸ hworkers)
    obtain ⟨workersLine, hline⟩ := exists_line (.workers (isCount_toDigits n) hn)
    exact ⟨_, parse_of_configures
      (.header hheader (.setting hline (.workers (isCount_toDigits n) hn) hrest))
      ⟨hworkers, rfl, rfl⟩⟩

/-- Every text is some lines. Well-formed lines give the last value asked for each field. Lines give
an error exactly when one in a launch section is faulty, and then that of the first one. All settings
but those with zero workers are read from some text. Lines outside of launch sections that are no
headers do not matter. -/
theorem parse_reads_back (lines : List TextLine) (s : LaunchSettings) :
    (∀ content, ∃ lines, content = fileText lines) ∧
    (∀ settings, Configures false lines settings → Leaves settings s →
      parse (fileText lines) = .ok s) ∧
    (∀ error, parse (fileText lines) = .error error ↔ FirstFault lines error) ∧
    ((∃ content, parse content = .ok s) ↔ s.workers ≠ some 0) ∧
    (∀ before outside after, lines = before ++ outside ++ after → ¬InLaunch before →
      (∀ line ∈ outside, ∀ name, ¬IsHeader line.val name) →
      parse (fileText lines) = parse (fileText (before ++ after))) := by
  refine ⟨exists_fileText, fun settings => parse_of_configures, fun error => ?_,
    ⟨?_, exists_parse_eq_ok⟩, fun before outside after hlines hbefore houtside => ?_⟩
  · rw [parse_fileText, ← SettingsReader.readLines_eq_error_iff]
    cases SettingsReader.start.readLines lines <;> simp [Except.map]
  · rintro ⟨content, hparse⟩
    obtain ⟨lines, rfl⟩ := exists_fileText content
    rw [parse_fileText] at hparse
    cases hread : SettingsReader.start.readLines lines with
    | error found => simp [hread, Except.map] at hparse
    | ok r =>
      rw [hread] at hparse
      cases hparse
      exact SettingsReader.workers_of_readLines hread
  · rw [hlines, parse_fileText, parse_fileText, SettingsReader.readLines_outside hbefore houtside]

def twoAssignments : List TextLine :=
  [⟨"[launch]".toList, by decide⟩, ⟨" \"workers\" = +4 # four".toList, by decide⟩,
    ⟨"workers=8".toList, by decide⟩]

theorem parse_reads_back_twice :
    parse "workers = 0\n[launch]\n \"workers\" = +4 # four\nworkers=8" =
      .ok { workers := some 8 } := by
  have hheader : IsHeader "[launch]".toList "launch".toList :=
    SettingsLine.ofText_eq_header_iff.mp rfl
  have hfour : Assigns " \"workers\" = +4 # four".toList "workers".toList "+4".toList :=
    SettingsLine.ofText_eq_assignment_iff.mp rfl
  have height : Assigns "workers=8".toList "workers".toList "8".toList :=
    SettingsLine.ofText_eq_assignment_iff.mp rfl
  have hforeign : ∀ name, ¬IsHeader "workers = 0".toList name := fun name h => by
    cases SettingsLine.ofText_of_isHeader h
  have hasksFour : Asks "workers".toList "+4".toList (.workers 4 (by decide)) :=
    .workers (parseCount?_eq_some_iff.mp rfl) _
  have hasksEight : Asks "workers".toList "8".toList (.workers 8 (by decide)) :=
    .workers (parseCount?_eq_some_iff.mp rfl) _
  have hread : parse (fileText twoAssignments) = .ok { workers := some 8 } :=
    (parse_reads_back _ _).2.1 _
      (.header hheader (.setting hfour hasksFour (.setting height hasksEight .nil))) ⟨rfl, rfl, rfl⟩
  have hskip := (parse_reads_back (⟨"workers = 0".toList, by decide⟩ :: twoAssignments) {}).2.2.2.2
    [] [⟨"workers = 0".toList, by decide⟩] twoAssignments rfl not_inLaunch_nil
    (by simpa using hforeign)
  exact hskip.trans hread

end LaunchSettings

end LoopNest
