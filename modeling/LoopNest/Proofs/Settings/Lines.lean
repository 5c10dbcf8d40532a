import LoopNest.Proofs.Text.Stripping
import LoopNest.Settings.Parse
import Mathlib.Data.List.Basic

/-! The lines of a settings file, by their shape alone: a line is blank or a comment, a section
header in brackets, or an assignment of a value to a key. What a line is read as is its shape. -/

namespace LoopNest

abbrev TextLine := {line : List Char // '\n' ∉ line}

def fileText (lines : List TextLine) : String :=
  String.ofList (['\n'].intercalate (lines.map (·.val)))

theorem textLines_eq_splitOn (cs : List Char) : textLines cs = cs.splitOn '\n' := by
  fun_induction textLines cs with
  | case1 => rfl
  | case2 cs ih => simp [List.splitOn_cons_eq_if_modifyHead, ih]
  | case3 c cs hc first lines hlines ih =>
    rw [List.splitOn_cons_eq_if_modifyHead, if_neg (by simpa using hc), ← ih, hlines]
    rfl
  | case4 c cs hc hnil ih => exact absurd (ih ▸ hnil) (List.splitOn_ne_nil '\n' cs)

theorem newline_not_mem_of_mem_textLines {cs line : List Char} (h : line ∈ textLines cs) :
    '\n' ∉ line := by
  fun_induction textLines cs generalizing line with
  | case1 => simp_all
  | case2 cs ih =>
    obtain rfl | h := List.mem_cons.mp h
    · exact List.not_mem_nil
    · exact ih h
  | case3 c cs hc first lines hlines ih =>
    obtain rfl | h := List.mem_cons.mp h
    · exact List.not_mem_cons_of_ne_of_not_mem (fun heq => hc heq.symm)
        (ih (hlines ▸ List.mem_cons_self))
    · exact ih (hlines ▸ List.mem_cons_of_mem first h)
  | case4 c cs hc hnil ih =>
    rw [textLines_eq_splitOn] at hnil
    exact absurd hnil (List.splitOn_ne_nil '\n' cs)

theorem exists_fileText (content : String) : ∃ lines, content = fileText lines := by
  refine ⟨(textLines content.toList).attach.map fun line =>
    ⟨line.val, newline_not_mem_of_mem_textLines line.property⟩, ?_⟩
  rw [fileText, List.map_map]
  simp only [Function.comp_def, List.attach_map_subtype_val, textLines_eq_splitOn]
  rw [List.intercalate_splitOn, String.ofList_toList]

theorem textLines_fileText {lines : List TextLine} (h : lines ≠ []) :
    textLines (fileText lines).toList = lines.map (·.val) := by
  rw [fileText, String.toList_ofList, textLines_eq_splitOn, List.splitOn_intercalate]
  · intro l hmem
    obtain ⟨line, -, rfl⟩ := List.mem_map.mp hmem
    exact line.property
  · exact mt List.map_eq_nil_iff.mp h

def OpensWith (c : Char) (line : List Char) : Prop :=
  ∃ before rest, line = before ++ c :: rest ∧ ∀ x ∈ before, isBlank x

def ClosesWith (c : Char) (line : List Char) : Prop :=
  ∃ init after, line = init ++ c :: after ∧ ∀ x ∈ after, isBlank x

/-- A line that says nothing: nothing but white space, or a comment. -/
def IsIdle (line : List Char) : Prop :=
  ∃ text, Strips isBlank line text ∧ (text = [] ∨ text.head? = some '#')

/-- A section header: a name in brackets, white space aside, and nothing after them. -/
def IsHeader (line name : List Char) : Prop :=
  ∃ inner, Strips isBlank line ('[' :: (inner ++ [']'])) ∧ Strips isBlank inner name

def IsKey (before key : List Char) : Prop :=
  ∃ quoted, Strips isBlank before quoted ∧ Strips (· == '"') quoted key

/-- The value after the equals sign of an assignment, with white space around it and perhaps a
comment after it. -/
def IsValue (after value : List Char) : Prop :=
  ∃ content, Strips isBlank content value ∧ '#' ∉ content ∧
    (after = content ∨ ∃ comment, after = content ++ '#' :: comment)

def Assigns (line key value : List Char) : Prop :=
  ¬IsIdle line ∧ (∀ name, ¬IsHeader line name) ∧ ∃ before after,
    line = before ++ '=' :: after ∧ '=' ∉ before ∧ IsKey before key ∧ IsValue after value

/-- What a line of each shape is read as. -/
inductive HasShape (line : List Char) : SettingsLine → Prop where
  | idle (h : IsIdle line) : HasShape line .empty
  | header {name : List Char} (h : IsHeader line name) : HasShape line (.header name)
  | assignment {key value : List Char} (h : Assigns line key value) :
    HasShape line (.assignment key value)
  | other (hidle : ¬IsIdle line) (hheader : ∀ name, ¬IsHeader line name) (hequals : '=' ∉ line) :
    HasShape line .other

variable {line text key value name before after : List Char}

theorem exists_bracketed_iff : (∃ inner, text = '[' :: (inner ++ [']'])) ↔
    text.head? = some '[' ∧ text.getLast? = some ']' := by
  constructor
  · rintro ⟨inner, rfl⟩
    rw [← List.cons_append, List.getLast?_concat]
    exact ⟨rfl, rfl⟩
  · rintro ⟨hhead, hlast⟩
    obtain ⟨rest, rfl⟩ := List.head?_eq_some_iff.mp hhead
    -- The first bracket is not the last one.
    obtain rfl | ⟨inner, c, rfl⟩ := List.eq_nil_or_concat' rest
    · cases hlast
    · rw [← List.cons_append, List.getLast?_concat] at hlast
      exact ⟨inner, Option.some_inj.mp hlast ▸ rfl⟩

theorem opensWith_iff {c : Char} (hc : isBlank c = false) :
    OpensWith c line ↔ (trimBlanks line).head? = some c := by
  constructor
  · rintro ⟨before, rest, rfl, hbefore⟩
    rw [trimBlanks_append_cons hc, List.dropWhile_eq_nil_iff.mpr hbefore]
    rfl
  · intro hhead
    obtain ⟨rest, hrest⟩ := List.head?_eq_some_iff.mp hhead
    obtain ⟨before, after, hline, hbefore, -⟩ := strips_trimBlanks line
    exact ⟨before, rest ++ after, by rw [hline, hrest]; simp, hbefore⟩

theorem closesWith_iff {c : Char} (hc : isBlank c = false) :
    ClosesWith c line ↔ (trimBlanks line).getLast? = some c := by
  constructor
  · rintro ⟨init, after, rfl, hafter⟩
    rw [trimBlanks_append_cons hc, List.rdropWhile_eq_nil_iff.mpr hafter, List.getLast?_concat]
  · intro hlast
    obtain ⟨init, hinit⟩ := List.getLast?_eq_some_iff.mp hlast
    obtain ⟨before, after, hline, -, hafter, -⟩ := strips_trimBlanks line
    exact ⟨before ++ init, after, by rw [hline, hinit]; simp, hafter⟩

theorem isIdle_iff : IsIdle line ↔ (∀ x ∈ line, isBlank x) ∨ OpensWith '#' line := by
  rw [opensWith_iff rfl]
  constructor
  · rintro ⟨text, htext, rfl | hhead⟩
    · obtain ⟨before, after, rfl, hbefore, hafter, -⟩ := htext
      simpa [or_imp, forall_and] using Or.inl ⟨hbefore, hafter⟩
    · exact .inr (strips_isBlank_iff.mp htext ▸ hhead)
  · rintro (hblank | hhead)
    · exact ⟨[], ⟨line, [], by simp, hblank, by simp⟩, .inl rfl⟩
    · exact ⟨_, strips_trimBlanks line, .inr hhead⟩

theorem exists_isHeader_iff :
    (∃ name, IsHeader line name) ↔ OpensWith '[' line ∧ ClosesWith ']' line := by
  rw [opensWith_iff rfl, closesWith_iff rfl, ← exists_bracketed_iff]
  constructor
  · rintro ⟨name, inner, hline, -⟩
    exact ⟨inner, strips_isBlank_iff.mp hline⟩
  · rintro ⟨inner, hinner⟩
    exact ⟨_, inner, strips_isBlank_iff.mpr hinner, strips_trimBlanks inner⟩

theorem opensWith_iff_find? {c : Char} (hc : isBlank c = false) :
    OpensWith c line ↔ line.find? (fun x => !isBlank x) = some c := by
  simp [OpensWith, List.find?_eq_some_iff_append, hc]

theorem OpensWith.unique {c d : Char} (h : OpensWith c line) (hc : isBlank c = false)
    (h' : OpensWith d line) (hd : isBlank d = false) : c = d :=
  Option.some_inj.mp (((opensWith_iff_find? hc).mp h).symm.trans ((opensWith_iff_find? hd).mp h'))

theorem closesWith_iff_reverse {c : Char} : ClosesWith c line ↔ OpensWith c line.reverse := by
  constructor
  · rintro ⟨init, after, rfl, hafter⟩
    exact ⟨after.reverse, init.reverse, by simp, by simpa using hafter⟩
  · rintro ⟨before, rest, hline, hbefore⟩
    refine ⟨rest.reverse, before.reverse, ?_, by simpa using hbefore⟩
    rw [← List.reverse_reverse line, hline]
    simp

theorem isKey_iff : IsKey before key ↔ cleanKey before = key := by
  constructor
  · rintro ⟨quoted, hquoted, hkey⟩
    rw [cleanKey, strips_isBlank_iff.mp hquoted]
    exact strips_iff.mp hkey
  · exact fun h => ⟨trimBlanks before, strips_isBlank_iff.mpr rfl, strips_iff.mpr h⟩

theorem isValue_iff : IsValue after value ↔ cleanValue after = value := by
  have hkept : ∀ {content : List Char}, '#' ∉ content → ∀ c ∈ content, (c != '#') = true :=
    fun h c hc => bne_iff_ne.mpr fun heq => h (heq ▸ hc)
  constructor
  · rintro ⟨content, hvalue, hhash, rfl | ⟨comment, rfl⟩⟩
    · rw [cleanValue, List.takeWhile_eq_self_iff.mpr (hkept hhash), strips_isBlank_iff.mp hvalue]
    · rw [cleanValue, List.takeWhile_append_of_pos (hkept hhash),
        List.takeWhile_cons_of_neg (by decide), List.append_nil, strips_isBlank_iff.mp hvalue]
  · intro h
    refine ⟨after.takeWhile (· != '#'), strips_isBlank_iff.mpr h, fun hmem => ?_, ?_⟩
    · simpa using List.mem_takeWhile_imp hmem
    · by_cases hhash : '#' ∈ after
      · obtain ⟨content, comment, rfl, hcontent⟩ := List.eq_append_cons_of_mem hhash
        refine .inr ⟨comment, ?_⟩
        rw [List.takeWhile_append_of_pos (hkept hcontent), List.takeWhile_cons_of_neg (by decide),
          List.append_nil]
      · exact .inl (List.takeWhile_eq_self_iff.mpr (hkept hhash)).symm

theorem IsValue.append_blanks {blanks : List Char} (h : IsValue after value)
    (hblanks : ∀ c ∈ blanks, isBlank c) : IsValue (after ++ blanks) value := by
  obtain ⟨content, hvalue, hhash, rfl | ⟨comment, rfl⟩⟩ := h
  · refine ⟨after ++ blanks, hvalue.append_right hblanks, fun hmem => ?_, .inl rfl⟩
    exact (List.mem_append.mp hmem).elim hhash (not_mem_of_forall hblanks rfl)
  · exact ⟨content, hvalue, hhash, .inr ⟨comment ++ blanks, by simp⟩⟩

theorem cleanKey_dropWhile (before : List Char) :
    cleanKey (before.dropWhile isBlank) = cleanKey before := by
  rw [cleanKey, cleanKey, trimBlanks, trimBlanks, List.dropWhile_idempotent]

theorem cleanValue_rdropWhile (after : List Char) :
    cleanValue (after.rdropWhile isBlank) = cleanValue after := by
  have h : IsValue (after.rdropWhile isBlank) (cleanValue (after.rdropWhile isBlank)) :=
    isValue_iff.mpr rfl
  have happend := h.append_blanks fun c (hc : c ∈ after.rtakeWhile isBlank) =>
    List.mem_rtakeWhile_imp hc
  rw [List.rdropWhile_append_rtakeWhile] at happend
  exact (isValue_iff.mp happend).symm

namespace SettingsLine

theorem ofText_of_strips (h : Strips isBlank line text) : ofText line =
    if text.isEmpty ∨ text.head? = some '#' then .empty
    else if text.head? = some '[' ∧ text.getLast? = some ']' then
      .header (trimBlanks (text.drop 1).dropLast)
    else
      match splitAtChar '=' text with
      | (key, some value) => .assignment (cleanKey key) (cleanValue value)
      | (_, none) => .other := by
  obtain rfl := strips_isBlank_iff.mp h
  rfl

theorem ofText_append_blanks {blanks : List Char} (h : ∀ c ∈ blanks, isBlank c) :
    ofText (line ++ blanks) = ofText line := by
  rw [ofText_of_strips ((strips_trimBlanks line).append_right h),
    ofText_of_strips (strips_trimBlanks line)]

theorem ofText_of_isIdle (h : IsIdle line) : ofText line = .empty := by
  obtain ⟨text, htext, hidle⟩ := h
  rw [ofText_of_strips htext, if_pos (by simpa using hidle)]

theorem ofText_of_isHeader (h : IsHeader line name) : ofText line = .header name := by
  obtain ⟨inner, hline, hname⟩ := h
  rw [ofText_of_strips hline, if_neg (by simp), if_pos (exists_bracketed_iff.mp ⟨inner, rfl⟩),
    List.drop_one, List.tail_cons, List.dropLast_concat, strips_isBlank_iff.mp hname]

theorem ofText_of_not (hidle : ¬IsIdle line) (hheader : ∀ name, ¬IsHeader line name) :
    ofText line = match splitAtChar '=' (trimBlanks line) with
      | (key, some value) => .assignment (cleanKey key) (cleanValue value)
      | (_, none) => .other := by
  rw [ofText_of_strips (strips_trimBlanks line), if_neg, if_neg]
  · intro h
    obtain ⟨inner, hinner⟩ := exists_bracketed_iff.mpr h
    exact hheader _ ⟨inner, hinner ▸ strips_trimBlanks line, strips_trimBlanks inner⟩
  · intro h
    exact hidle ⟨_, strips_trimBlanks line, by simpa using h⟩

theorem ofText_of_assigns (h : Assigns line key value) : ofText line = .assignment key value := by
  obtain ⟨hidle, hheader, before, after, rfl, hbefore, hkey, hvalue⟩ := h
  have hsplit := splitAtChar_append (c := '=') (after.rdropWhile isBlank)
    fun hmem => hbefore ((List.dropWhile_suffix isBlank).subset hmem)
  rw [ofText_of_not hidle hheader, trimBlanks_append_cons (by decide), hsplit]
  dsimp only
  rw [cleanKey_dropWhile, cleanValue_rdropWhile, isKey_iff.mp hkey, isValue_iff.mp hvalue]

theorem ofText_of_not_mem (hidle : ¬IsIdle line) (hheader : ∀ name, ¬IsHeader line name)
    (hline : '=' ∉ line) : ofText line = .other := by
  rw [ofText_of_not hidle hheader, splitAtChar_of_not_mem]
  rwa [(strips_trimBlanks line).mem_iff (by decide)]

theorem ofText_of_hasShape {read : SettingsLine} (h : HasShape line read) :
    ofText line = read := by
  cases h with
  | idle h => exact ofText_of_isIdle h
  | header h => exact ofText_of_isHeader h
  | assignment h => exact ofText_of_assigns h
  | other hidle hheader hequals => exact ofText_of_not_mem hidle hheader hequals

theorem exists_hasShape (line : List Char) : ∃ read, HasShape line read := by
  by_cases hidle : IsIdle line
  · exact ⟨_, .idle hidle⟩
  by_cases hheader : ∃ name, IsHeader line name
  · obtain ⟨name, hheader⟩ := hheader
    exact ⟨_, .header hheader⟩
  rw [not_exists] at hheader
  by_cases hequals : '=' ∈ line
  · obtain ⟨before, after, hline, hbefore⟩ := List.eq_append_cons_of_mem hequals
    exact ⟨_, .assignment ⟨hidle, hheader, before, after, hline, hbefore, isKey_iff.mpr rfl,
      isValue_iff.mpr rfl⟩⟩
  · exact ⟨_, .other hidle hheader hequals⟩

/-- Every line has one shape, and is read as it says. -/
theorem hasShape_ofText (line : List Char) : HasShape line (ofText line) := by
  obtain ⟨read, h⟩ := exists_hasShape line
  rwa [ofText_of_hasShape h]

theorem ofText_eq_header_iff : ofText line = .header name ↔ IsHeader line name := by
  refine ⟨fun h => ?_, ofText_of_isHeader⟩
  cases h ▸ hasShape_ofText line
  assumption

theorem ofText_eq_assignment_iff :
    ofText line = .assignment key value ↔ Assigns line key value := by
  refine ⟨fun h => ?_, ofText_of_assigns⟩
  cases h ▸ hasShape_ofText line
  assumption

end SettingsLine

end LoopNest
