import LoopNest.Proofs.Failure
import LoopNest.Proofs.Settings.Lines
import LoopNest.Proofs.Settings.Values

/-! The sections of a settings file. A line belongs to the section of the last header above it, and
only those of launch sections can change the settings or be at fault. -/

namespace LoopNest

/-- Whether what follows these lines is in a launch section: the last header is one. -/
def InLaunch (lines : List TextLine) : Prop :=
  ∃ earlier header since, lines = earlier ++ header :: since ∧
    IsHeader header.val "launch".toList ∧ ∀ line ∈ since, ∀ name, ¬IsHeader line.val name

def FaultyLine (line : TextLine) (error : SettingsError) : Prop :=
  ∃ key value, Assigns line.val key value ∧ Faults key value error

variable {lines before outside after : List TextLine} {line : TextLine} {name key value : List Char}
  {r r' : SettingsReader} {error : SettingsError}

theorem IsHeader.unique {name' : List Char} (h : IsHeader line.val name)
    (h' : IsHeader line.val name') : name = name' := by
  have heq := (SettingsLine.ofText_of_isHeader h).symm.trans (SettingsLine.ofText_of_isHeader h')
  exact SettingsLine.header.inj heq

theorem not_inLaunch_nil : ¬InLaunch [] := by
  rintro ⟨earlier, header, since, h, -⟩
  exact absurd h.symm (by simp)

theorem cases_of_concat_eq_append_cons {α : Type} {init earlier since : List α} {last mid : α}
    (h : init ++ [last] = earlier ++ mid :: since) :
    (since = [] ∧ last = mid) ∨ ∃ rest, since = rest ++ [last] ∧ init = earlier ++ mid :: rest := by
  obtain rfl | ⟨rest, final, rfl⟩ := List.eq_nil_or_concat' since
  · obtain ⟨-, hlast⟩ := List.append_inj' h rfl
    exact .inl ⟨rfl, List.singleton_inj.mp hlast⟩
  · rw [← List.cons_append, ← List.append_assoc] at h
    obtain ⟨rfl, hlast⟩ := List.append_inj' h rfl
    exact .inr ⟨rest, List.singleton_inj.mp hlast ▸ rfl, rfl⟩

theorem inLaunch_concat_of_isHeader (h : IsHeader line.val name) :
    InLaunch (before ++ [line]) ↔ name = "launch".toList := by
  constructor
  · rintro ⟨earlier, header, since, heq, hlaunch, hsince⟩
    obtain ⟨rfl, rfl⟩ | ⟨rest, rfl, -⟩ := cases_of_concat_eq_append_cons heq
    · exact h.unique hlaunch
    · exact absurd h (hsince line (by simp) name)
  · rintro rfl
    exact ⟨before, line, [], rfl, h, by simp⟩

theorem inLaunch_concat_of_not (h : ∀ name, ¬IsHeader line.val name) :
    InLaunch (before ++ [line]) ↔ InLaunch before := by
  constructor
  · rintro ⟨earlier, header, since, heq, hlaunch, hsince⟩
    obtain ⟨-, rfl⟩ | ⟨rest, rfl, rfl⟩ := cases_of_concat_eq_append_cons heq
    · exact absurd hlaunch (h _)
    · exact ⟨earlier, header, rest, rfl, hlaunch,
        fun other hother => hsince other (List.mem_append_left _ hother)⟩
  · rintro ⟨earlier, header, since, rfl, hlaunch, hsince⟩
    refine ⟨earlier, header, since ++ [line], by simp, hlaunch, fun other hother => ?_⟩
    obtain hother | hother := List.mem_append.mp hother
    · exact hsince other hother
    · exact List.mem_singleton.mp hother ▸ h

namespace SettingsReader

def readLines (r : SettingsReader) (lines : List TextLine) : Except SettingsError SettingsReader :=
  lines.foldlM (fun r line => r.step (.ofText line.val)) r

theorem readLines_cons (r : SettingsReader) (line : TextLine) (lines : List TextLine) :
    r.readLines (line :: lines) = (r.step (.ofText line.val) >>= (·.readLines lines)) :=
  List.foldlM_cons

theorem readLines_append (r : SettingsReader) (lines rest : List TextLine) :
    r.readLines (lines ++ rest) = (r.readLines lines >>= (·.readLines rest)) :=
  List.foldlM_append

/-- What reading one line can do. -/
inductive Steps (r : SettingsReader) (line : TextLine) :
    Except SettingsError SettingsReader → Prop where
  | header {name : List Char} (h : IsHeader line.val name) :
    Steps r line (.ok { r with current := name })
  | kept (hheader : ∀ name, ¬IsHeader line.val name)
    (h : r.current = "launch".toList → ∀ key value, ¬Assigns line.val key value) :
    Steps r line (.ok r)
  | asked {key value : List Char} {setting : Setting} (hlaunch : r.current = "launch".toList)
    (hassigns : Assigns line.val key value) (hasks : Asks key value setting) :
    Steps r line (.ok { r with settings := setting.apply r.settings })
  | faulty {error : SettingsError} (hlaunch : r.current = "launch".toList)
    (hfaulty : FaultyLine line error) : Steps r line (.error error)

theorem step_of_isHeader (h : IsHeader line.val name) :
    r.step (.ofText line.val) = .ok { r with current := name } := by
  rw [SettingsLine.ofText_of_isHeader h, step]

theorem step_of_isIdle (h : IsIdle line.val) : r.step (.ofText line.val) = .ok r := by
  rw [SettingsLine.ofText_of_isIdle h, step]

theorem step_of_asks {setting : Setting} (hlaunch : r.current = "launch".toList)
    (hassigns : Assigns line.val key value) (hasks : Asks key value setting) :
    r.step (.ofText line.val) = .ok { r with settings := setting.apply r.settings } := by
  rw [SettingsLine.ofText_of_assigns hassigns, step, if_pos hlaunch,
    LaunchSettings.assign_of_asks r.settings hasks]
  rfl

theorem step_of_faultyLine (hlaunch : r.current = "launch".toList) (h : FaultyLine line error) :
    r.step (.ofText line.val) = .error error := by
  obtain ⟨key, value, hassigns, hfaults⟩ := h
  rw [SettingsLine.ofText_of_assigns hassigns, step, if_pos hlaunch,
    LaunchSettings.assign_of_faults r.settings hfaults]
  rfl

theorem steps_step (r : SettingsReader) (line : TextLine) :
    Steps r line (r.step (.ofText line.val)) := by
  have hshape := SettingsLine.hasShape_ofText line.val
  generalize hread : SettingsLine.ofText line.val = read at hshape
  cases hshape with
  | idle hidle =>
    have hheader : ∀ name, ¬IsHeader line.val name := fun name h => by
      cases hread.symm.trans (SettingsLine.ofText_of_isHeader h)
    exact .kept hheader fun _ key value hassigns => hassigns.1 hidle
  | header hheader => exact .header hheader
  | other hidle hheader hequals =>
    refine .kept hheader fun _ key value hassigns => ?_
    obtain ⟨-, -, before, after, hline, -⟩ := hassigns
    exact hequals (by simp [hline])
  | @assignment key value hassigns =>
    by_cases hlaunch : r.current = "launch".toList
    · rw [← hread]
      obtain ⟨setting, hasks⟩ | ⟨error, hfaults⟩ := asks_or_faults key value
      · exact step_of_asks hlaunch hassigns hasks ▸ .asked hlaunch hassigns hasks
      · have hfaulty : FaultyLine line error := ⟨key, value, hassigns, hfaults⟩
        exact step_of_faultyLine hlaunch hfaulty ▸ .faulty hlaunch hfaulty
    · rw [step, if_neg hlaunch]
      exact .kept hassigns.2.1 fun h => absurd h hlaunch

theorem step_of_foreign (h : ∀ name, ¬IsHeader line.val name)
    (hforeign : r.current ≠ "launch".toList) : r.step (.ofText line.val) = .ok r := by
  have hsteps := r.steps_step line
  generalize r.step (.ofText line.val) = result at hsteps ⊢
  cases hsteps with
  | header hheader => exact absurd hheader (h _)
  | kept => rfl
  | asked hlaunch => exact absurd hlaunch hforeign
  | faulty hlaunch => exact absurd hlaunch hforeign

theorem readLines_of_foreign (h : ∀ line ∈ lines, ∀ name, ¬IsHeader line.val name)
    (hforeign : r.current ≠ "launch".toList) : r.readLines lines = .ok r := by
  induction lines with
  | nil => rfl
  | cons line lines ih =>
    obtain ⟨hline, hlines⟩ := List.forall_mem_cons.mp h
    rw [readLines_cons, step_of_foreign hline hforeign]
    exact ih hlines

theorem current_of_step (h : r.step (.ofText line.val) = .ok r')
    (hcurrent : r.current = "launch".toList ↔ InLaunch before) :
    r'.current = "launch".toList ↔ InLaunch (before ++ [line]) := by
  have hsteps := h ▸ r.steps_step line
  cases hsteps with
  | header hheader => exact (inLaunch_concat_of_isHeader hheader).symm
  | kept hheader => rw [hcurrent, inLaunch_concat_of_not hheader]
  | asked hlaunch hassigns => rw [hcurrent, inLaunch_concat_of_not hassigns.2.1]

theorem current_of_readLines (h : start.readLines lines = .ok r) :
    r.current = "launch".toList ↔ InLaunch lines :=
  foldlM_invariant (P := fun lines r => r.current = "launch".toList ↔ InLaunch lines) h
    (iff_of_false (by decide) not_inLaunch_nil) fun _ _ _ _ hcurrent hstep =>
      current_of_step hstep hcurrent

theorem readLines_outside (hbefore : ¬InLaunch before)
    (houtside : ∀ line ∈ outside, ∀ name, ¬IsHeader line.val name) :
    start.readLines (before ++ outside ++ after) = start.readLines (before ++ after) := by
  rw [List.append_assoc, readLines_append, readLines_append]
  cases hread : start.readLines before with
  | error => rfl
  | ok r =>
    show r.readLines (outside ++ after) = r.readLines after
    rw [readLines_append, readLines_of_foreign houtside (mt (current_of_readLines hread).mp hbefore)]
    rfl

end SettingsReader

namespace LaunchSettings

theorem parse_fileText (lines : List TextLine) :
    parse (fileText lines) = (SettingsReader.start.readLines lines).map (·.settings) := by
  cases lines with
  | nil => rfl
  | cons line lines =>
    rw [parse, textLines_fileText (List.cons_ne_nil line lines), List.map_map, List.foldlM_map]
    rfl

end LaunchSettings

end LoopNest
