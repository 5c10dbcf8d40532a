import LoopNest.Proofs.Settings.Sections

/-! Comments at the ends of lines. A comment after an assignment or another comment changes nothing.
A header has to end with its bracket, so with a comment it is no header; and what opens with a bracket
becomes one when the comment closes it. -/

namespace LoopNest

variable {line comment name key value : List Char} {c : Char}

def commented (line comment : List Char) : List Char := line ++ ' ' :: '#' :: comment

theorem opensWith_commented_iff (hc : isBlank c = false) : OpensWith c (commented line comment) ↔
    OpensWith c line ∨ ((∀ x ∈ line, isBlank x) ∧ c = '#') := by
  have hrest : (' ' :: '#' :: comment).find? (fun x => !isBlank x) = some '#' := rfl
  rw [opensWith_iff_find? hc, opensWith_iff_find? hc, commented, List.find?_append, hrest,
    Option.or_eq_some_iff, List.find?_eq_none, Option.some_inj, eq_comm (a := '#')]
  simp

theorem closesWith_commented_iff (hc : isBlank c = false) (hhash : c ≠ '#') :
    ClosesWith c (commented line comment) ↔ ClosesWith c comment := by
  have hrest : ('#' :: ' ' :: line.reverse).find? (fun x => !isBlank x) = some '#' := rfl
  have hreverse : (commented line comment).reverse =
      comment.reverse ++ '#' :: ' ' :: line.reverse := by simp [commented]
  rw [closesWith_iff_reverse, closesWith_iff_reverse, opensWith_iff_find? hc,
    opensWith_iff_find? hc, hreverse, List.find?_append, hrest, Option.or_eq_some_iff,
    Option.some_inj, or_iff_left fun h => hhash h.2.symm]

theorem isIdle_commented_iff : IsIdle (commented line comment) ↔ IsIdle line := by
  have hhash : ¬∀ x ∈ commented line comment, isBlank x := fun h =>
    absurd (h '#' (by simp [commented])) (by decide)
  rw [isIdle_iff, isIdle_iff, opensWith_commented_iff rfl, or_iff_right hhash, or_comm]
  simp

theorem exists_isHeader_commented_iff : (∃ name, IsHeader (commented line comment) name) ↔
    OpensWith '[' line ∧ ClosesWith ']' comment := by
  rw [exists_isHeader_iff, opensWith_commented_iff rfl, closesWith_commented_iff rfl (by decide),
    or_iff_left fun h => absurd h.2 (by decide)]

theorem not_isHeader_of_bracket (h : ¬(OpensWith '[' line ∧ ClosesWith ']' comment))
    (name : List Char) : ¬IsHeader (commented line comment) name := fun hname =>
  h (exists_isHeader_commented_iff.mp ⟨name, hname⟩)

theorem IsValue.append_comment {after : List Char} (h : IsValue after value) :
    IsValue (after ++ ' ' :: '#' :: comment) value := by
  obtain ⟨content, hvalue, hhash, rfl | ⟨first, rfl⟩⟩ := h
  · have hblank : ∀ c ∈ [' '], isBlank c := fun c hc => List.mem_singleton.mp hc ▸ rfl
    exact ⟨after ++ [' '], hvalue.append_right hblank, by simpa using hhash,
      .inr ⟨comment, by simp⟩⟩
  · exact ⟨content, hvalue, hhash, .inr ⟨first ++ ' ' :: '#' :: comment, by simp⟩⟩

theorem Assigns.commented (h : Assigns line key value)
    (hheader : ¬(OpensWith '[' line ∧ ClosesWith ']' comment)) :
    Assigns (commented line comment) key value := by
  obtain ⟨hidle, -, before, after, rfl, hbefore, hkey, hvalue⟩ := h
  exact ⟨mt isIdle_commented_iff.mp hidle, not_isHeader_of_bracket hheader, before,
    after ++ ' ' :: '#' :: comment, by simp [LoopNest.commented], hbefore, hkey,
    hvalue.append_comment⟩

theorem IsHeader.count_eq (h : IsHeader line name) : line.count ']' = name.count ']' + 1 := by
  obtain ⟨inner, hline, hname⟩ := h
  rw [← hline.count_eq rfl, hname.count_eq rfl]
  simp

theorem not_isHeader_commented (h : IsHeader line name) :
    ¬IsHeader (commented line comment) name := by
  intro hcommented
  obtain ⟨-, init, after, rfl, -⟩ := exists_isHeader_commented_iff.mp ⟨name, hcommented⟩
  have hcount := hcommented.count_eq
  rw [← h.count_eq] at hcount
  simp [commented] at hcount

/-- Whether a line with a comment after it is still what it was. -/
def Keeps (line comment : List Char) : Prop :=
  (∀ name, ¬IsHeader line name) ∧ ¬(OpensWith '[' line ∧ ClosesWith ']' comment) ∧
    ('=' ∈ comment → IsIdle line ∨ '=' ∈ line)

namespace SettingsLine

theorem ofText_commented (h : Keeps line comment) :
    ofText (commented line comment) = ofText line := by
  obtain ⟨hheader, hbracket, hequals⟩ := h
  refine ofText_of_hasShape ?_
  have hshape := hasShape_ofText line
  generalize ofText line = read at hshape
  cases hshape with
  | idle hidle => exact .idle (isIdle_commented_iff.mpr hidle)
  | header h => exact absurd h (hheader _)
  | assignment h => exact .assignment (h.commented hbracket)
  | other hidle _ hline =>
    refine .other (mt isIdle_commented_iff.mp hidle) (not_isHeader_of_bracket hbracket)
      fun hmem => ?_
    have hcomment : '=' ∉ comment := fun hmem => (hequals hmem).elim hidle hline
    simp [commented, hline, hcomment] at hmem

theorem keeps_of_ofText_commented (h : ofText (commented line comment) = ofText line) :
    Keeps line comment := by
  have hheader : ∀ name, ¬IsHeader line name := fun name hname =>
    not_isHeader_commented hname (ofText_eq_header_iff.mp (h.trans (ofText_of_isHeader hname)))
  refine ⟨hheader, fun hbracket => ?_, fun hcomment => ?_⟩
  · obtain ⟨name, hname⟩ := exists_isHeader_commented_iff.mpr hbracket
    exact hheader name (ofText_eq_header_iff.mp (h.symm.trans (ofText_of_isHeader hname)))
  · by_contra hnot
    rw [not_or] at hnot
    obtain ⟨hidle, hequals⟩ := hnot
    have hshape := hasShape_ofText (commented line comment)
    rw [h, ofText_of_not_mem hidle hheader hequals] at hshape
    cases hshape with
    | other _ _ hcommented => exact hcommented (by simp [commented, hcomment])

theorem ofText_commented_iff :
    ofText (commented line comment) = ofText line ↔ Keeps line comment :=
  ⟨keeps_of_ofText_commented, ofText_commented⟩

end SettingsLine

namespace TextLine

def append (line rest : TextLine) : TextLine :=
  ⟨line.val ++ rest.val, by simp [line.property, rest.property]⟩

def commented (line comment : TextLine) : TextLine :=
  ⟨LoopNest.commented line.val comment.val, by
    simp [LoopNest.commented, line.property, comment.property]⟩

end TextLine

/-- Whether a line can have a comment after it, when it follows some lines: it is no header and does
not become one, and in a launch section it does not become an assignment. -/
def Harmless (before : List TextLine) (line comment : TextLine) : Prop :=
  (∀ name, ¬IsHeader line.val name) ∧
    ¬(OpensWith '[' line.val ∧ ClosesWith ']' comment.val) ∧
    (InLaunch before → '=' ∈ comment.val → IsIdle line.val ∨ '=' ∈ line.val)

namespace SettingsReader

variable {before after : List TextLine} {line comment : TextLine}

theorem readLines_skip (hbefore : ¬InLaunch before) (hline : ∀ name, ¬IsHeader line.val name) :
    start.readLines (before ++ line :: after) = start.readLines (before ++ after) := by
  have h : start.readLines (before ++ [line] ++ after) = start.readLines (before ++ after) :=
    readLines_outside hbefore (by simpa using hline)
  rwa [List.append_assoc] at h

theorem readLines_skip_commented (hbefore : ¬InLaunch before)
    (hbracket : ¬(OpensWith '[' line.val ∧ ClosesWith ']' comment.val)) :
    start.readLines (before ++ line.commented comment :: after) =
      start.readLines (before ++ after) :=
  readLines_skip hbefore (not_isHeader_of_bracket hbracket)

theorem readLines_commented (h : Harmless before line comment) :
    start.readLines (before ++ line.commented comment :: after) =
      start.readLines (before ++ line :: after) := by
  obtain ⟨hheader, hbracket, hequals⟩ := h
  by_cases hlaunch : InLaunch before
  · have hsame := SettingsLine.ofText_commented ⟨hheader, hbracket, hequals hlaunch⟩
    simp only [readLines_append, readLines_cons, TextLine.commented, hsame]
  · rw [readLines_skip_commented hlaunch hbracket, readLines_skip hlaunch hheader]

theorem readLines_append_blanks {blanks : TextLine} (h : ∀ c ∈ blanks.val, isBlank c) :
    start.readLines (before ++ line.append blanks :: after) =
      start.readLines (before ++ line :: after) := by
  have hsame : SettingsLine.ofText (line.val ++ blanks.val) = .ofText line.val :=
    SettingsLine.ofText_append_blanks h
  simp only [readLines_append, readLines_cons, TextLine.append, hsame]

end SettingsReader

namespace LaunchSettings

/-- A comment after a line changes nothing when the line stays what it is, or when neither counts;
nor does white space, such as the carriage return of a line break. A header does not stay one:
outside of launch sections all lines are skipped with a comment after them, unless the comment closes
a bracket. -/
theorem parse_commented (before after : List TextLine) (line comment blanks : TextLine) :
    (SettingsLine.ofText (line.commented comment).val = .ofText line.val ↔
      Keeps line.val comment.val) ∧
    (Harmless before line comment →
      parse (fileText (before ++ line.commented comment :: after)) =
        parse (fileText (before ++ line :: after))) ∧
    ((∀ c ∈ blanks.val, isBlank c) →
      parse (fileText (before ++ line.append blanks :: after)) =
        parse (fileText (before ++ line :: after))) ∧
    (¬InLaunch before → ¬(OpensWith '[' line.val ∧ ClosesWith ']' comment.val) →
      parse (fileText (before ++ line.commented comment :: after)) =
        parse (fileText (before ++ after))) := by
  refine ⟨SettingsLine.ofText_commented_iff, fun h => ?_, fun h => ?_, fun hbefore hbracket => ?_⟩
  · rw [parse_fileText, parse_fileText, SettingsReader.readLines_commented h]
  · rw [parse_fileText, parse_fileText, SettingsReader.readLines_append_blanks h]
  · rw [parse_fileText, parse_fileText,
      SettingsReader.readLines_skip_commented hbefore hbracket]

theorem parse_commented_assignment :
    parse "[launch]\nworkers = 4 #four" = parse "[launch]\nworkers = 4" := by
  have hheader : ∀ name, ¬IsHeader "workers = 4".toList name := fun name h => by
    cases SettingsLine.ofText_of_isHeader h
  have hopens : ¬OpensWith '[' "workers = 4".toList := by
    rw [opensWith_iff_find? rfl]
    decide
  obtain ⟨-, hsame, -⟩ := parse_commented [⟨"[launch]".toList, by decide⟩] []
    ⟨"workers = 4".toList, by decide⟩ ⟨"four".toList, by decide⟩ ⟨[], by decide⟩
  exact hsame ⟨hheader, mt And.left hopens, fun _ _ => .inr (by decide)⟩

/-- The header with a comment after it is none, so the settings below it are lost. -/
theorem parse_commented_header :
    parse "[launch]\nworkers = 4\n" = .ok { workers := some 4 } ∧
      parse "[launch] # settings of this machine\nworkers = 4\n" = .ok {} := ⟨rfl, rfl⟩

end LaunchSettings

end LoopNest
