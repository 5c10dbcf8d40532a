import LoopNest.Proofs.Diagnostic.Drawing
import Mathlib.Data.List.DropRight

/-! The labelled excerpt has what is asked of a drawing, whatever the width of a character. Each of its
pieces is one that stands in every report alike, or comes from the outline or from the source. -/

namespace LoopNest

theorem Label.fit_eq_inside {label : Label} {source : String} (h : label.Inside source) :
    label.fit source.toList.length = .inside := by
  have hlength : source.toList.length ≠ 0 := by simpa using h.nonempty
  have horder := h.start_le
  have hstop := h.stop_le
  rw [fit, if_neg (by omega), if_neg (by omega)]

theorem Label.inside_of_fit {label : Label} {source : String} (horder : label.start ≤ label.stop)
    (h : label.fit source.toList.length = .inside) : label.Inside source := by
  rw [fit] at h
  split_ifs at h with hlength hstop
  refine ⟨fun hempty => hlength (.inl (by simp [hempty])), horder, by omega⟩

namespace Report

variable {width : Char → Nat} {o : Outline} {source : String} {label : Label} {chars : List Char}
  {index : Nat} {p : Piece}

/-- The pieces that stand in every report alike. -/
def furniture : List Piece :=
  [newline, space, plain "   ", margin "╭", margin "─", margin "[", margin "]", margin "│",
    margin "1 │", margin "───╯", tinted (.fixed 240) "  │", tinted (.fixed 115) "Help",
    tinted (.fixed 115) "Note", labelled "┬", labelled "─", labelled "│", labelled " ", labelled "╰"]

theorem furniture_other : ∀ p ∈ furniture, p.part = .other ∧ Unescaped p.text := by decide

theorem mark_subset {columns : Nat} {first rest : Piece} (hfirst : first ∈ furniture)
    (hrest : rest ∈ furniture) : mark columns first rest ⊆ furniture := by
  cases columns with
  | zero => exact List.nil_subset _
  | succ n =>
    refine List.cons_subset.mpr ⟨hfirst, fun p hp => ?_⟩
    rwa [List.eq_of_mem_replicate hp]

theorem underlineAt_subset : underlineAt width label chars index ⊆ furniture := by
  rw [underlineAt]
  split_ifs <;> exact mark_subset (by decide) (by decide)

theorem arrowAt_subset : arrowAt width label chars index ⊆ furniture := by
  rw [arrowAt]
  split_ifs <;> exact mark_subset (by decide) (by decide)

theorem continuation_subset : continuation ⊆ furniture := by decide

theorem mem_excerpt (h : p ∈ excerpt width label chars) :
    (∃ x ∈ chars.zipIdx, p ∈ sourceAt width label x) ∨ p ∈ furniture ∨
      p = plain (" " ++ label.message) := by
  have hmargin : [space, margin "1 │", space] ⊆ furniture := by decide
  have hnewline : newline ∈ furniture := by decide
  simp only [excerpt, List.mem_append, List.mem_flatMap, List.mem_cons, List.not_mem_nil,
    or_false] at h
  obtain (((((((h | h) | rfl) | h) | ⟨_, -, h⟩) | rfl) | h) | ⟨_, -, h⟩) | rfl | rfl := h
  · exact .inr (.inl (hmargin (by simpa using h)))
  · exact .inl h
  · exact .inr (.inl hnewline)
  · exact .inr (.inl (continuation_subset h))
  · exact .inr (.inl (underlineAt_subset h))
  · exact .inr (.inl hnewline)
  · exact .inr (.inl (continuation_subset h))
  · exact .inr (.inl (arrowAt_subset h))
  · exact .inr (.inr rfl)
  · exact .inr (.inl hnewline)

theorem mem_adviceLines {word : String} {text : Option String}
    (hword : tinted (.fixed 115) word ∈ furniture) (h : p ∈ adviceLines word text) :
    p ∈ furniture ∨ ∃ t, text = some t ∧ p = plain (": " ++ t) := by
  have hnewline : newline ∈ furniture := by decide
  cases text with
  | none => cases h
  | some t =>
    simp only [adviceLines, List.mem_append, List.mem_cons, List.not_mem_nil, or_false] at h
    obtain ((h | rfl) | h) | rfl | rfl | rfl := h
    · exact .inl (continuation_subset h)
    · exact .inl hnewline
    · exact .inl (continuation_subset h)
    · exact .inl hword
    · exact .inr ⟨t, rfl, rfl⟩
    · exact .inl hnewline

/-- What the pieces of a report come from. -/
inductive Drawn (width : Char → Nat) (o : Outline) (source : String) : Piece → Prop
  | furniture {p : Piece} (h : p ∈ furniture) : Drawn width o source p
  | header {p : Piece} (h : p ∈ header o) : Drawn width o source p
  | place : Drawn width o source ⟨.place, .own none, Report.place o.filename o.offset⟩
  | source {label : Label} (hlabel : o.label = some label)
      (hfit : label.fit source.toList.length = .inside) {c : Char} {index : Nat}
      (hchar : (dropBlanksRight source.toList)[index]? = some c) {p : Piece}
      (h : p ∈ sourceAt width label (c, index)) : Drawn width o source p
  | message {label : Label} (hlabel : o.label = some label) :
      Drawn width o source (plain (" " ++ label.message))
  | help {text : String} (h : o.help = some text) : Drawn width o source (plain (": " ++ text))
  | note {text : String} (h : o.note = some text) : Drawn width o source (plain (": " ++ text))

theorem drawn_of_mem_location (h : p ∈ location o) : Drawn width o source p := by
  have hothers : [plain "   ", margin "╭", margin "─", margin "[", margin "]", newline, plain "   ",
    margin "│", newline] ⊆ furniture := by decide
  by_cases hplace : p = ⟨.place, .own none, place o.filename o.offset⟩
  · exact hplace ▸ .place
  · refine .furniture (hothers ?_)
    simp only [location, List.mem_cons, hplace, false_or] at h
    simpa only [List.mem_cons] using h

theorem drawn_of_mem_closing (h : p ∈ closing o) : Drawn width o source p := by
  have hend : [margin "───╯", newline] ⊆ furniture := by decide
  simp only [closing, List.mem_append] at h
  obtain (h | h) | h := h
  · obtain h | ⟨text, htext, rfl⟩ := mem_adviceLines (by decide) h
    · exact .furniture h
    · exact .help htext
  · obtain h | ⟨text, htext, rfl⟩ := mem_adviceLines (by decide) h
    · exact .furniture h
    · exact .note htext
  · exact .furniture (hend h)

theorem drawn_of_mem_body (hlabel : o.label = some label) (h : p ∈ body width o label source.toList) :
    Drawn width o source p := by
  have hgap : continuation ++ [newline] ⊆ furniture := by decide
  rw [body] at h
  split at h
  · cases h
  · obtain h | h := List.mem_append.mp h
    · obtain h | h := List.mem_append.mp h
      · exact drawn_of_mem_location h
      · exact .furniture (hgap h)
    · exact drawn_of_mem_closing h
  · rename_i hfit
    obtain h | h := List.mem_append.mp h
    · obtain h | h := List.mem_append.mp h
      · exact drawn_of_mem_location h
      · obtain ⟨⟨c, index⟩, hchar, h⟩ | h | rfl := mem_excerpt h
        · exact .source hlabel hfit (List.mem_zipIdx_iff_getElem?.mp hchar) h
        · exact .furniture h
        · exact .message hlabel
    · exact drawn_of_mem_closing h

theorem drawn_of_mem (h : p ∈ labelledExcerpt width o source) : Drawn width o source p := by
  obtain h | h := List.mem_append.mp h
  · exact .header h
  · cases hlabel : o.label with
    | none => simp [hlabel] at h
    | some label => exact drawn_of_mem_body hlabel (by simpa only [hlabel] using h)

theorem header_subset : header o ⊆ labelledExcerpt width o source := List.subset_append_left ..

section Inside

variable (hlabel : o.label = some label) (hinside : label.Inside source)
include hlabel hinside

theorem labelledExcerpt_eq :
    labelledExcerpt width o source =
      header o ++ (location o ++ excerpt width label (dropBlanksRight source.toList) ++ closing o) := by
  simp only [labelledExcerpt, hlabel, body, label.fit_eq_inside hinside]

theorem location_subset : location o ⊆ labelledExcerpt width o source := by
  rw [labelledExcerpt_eq hlabel hinside]
  intro p hp
  simp only [List.mem_append, hp, true_or, or_true]

theorem closing_subset : closing o ⊆ labelledExcerpt width o source := by
  rw [labelledExcerpt_eq hlabel hinside]
  intro p hp
  simp only [List.mem_append, hp, or_true]

theorem sourceAt_subset {c : Char} (hchar : (dropBlanksRight source.toList)[index]? = some c) :
    sourceAt width label (c, index) ⊆ labelledExcerpt width o source := by
  rw [labelledExcerpt_eq hlabel hinside]
  intro p hp
  have hsource : p ∈ (dropBlanksRight source.toList).zipIdx.flatMap (sourceAt width label) :=
    List.mem_flatMap.mpr ⟨(c, index), List.mem_zipIdx_iff_getElem?.mpr hchar, hp⟩
  simp only [excerpt, List.mem_append, hsource, true_or, or_true]

end Inside

theorem width_of_space {c : Char} (h : (cell width c index).1 = ' ') :
    (cell width c index).2 ≠ 0 := by
  have hstop := Nat.mod_lt index (by decide : 0 < tabWidth)
  rw [cell] at h ⊢
  split_ifs at h ⊢ with hchar hblank
  · exact Nat.sub_ne_zero_of_lt hstop
  · exact Nat.one_ne_zero
  · have hspace : c = ' ' := h
    exact absurd (by decide) (hspace ▸ hblank)

theorem sourceAt_ne_nil (x : Char × Nat) : sourceAt width label x ≠ [] := by
  simp only [sourceAt]
  split
  · rename_i hspace
    simpa using width_of_space hspace
  · exact List.cons_ne_nil _ []

theorem of_mem_sourceAt {c : Char} (h : p ∈ sourceAt width label (c, index)) :
    p.part = .source index ∧ p.ink = sourceInk label index ∧ Drawing.Depicts p.text c := by
  simp only [sourceAt] at h
  split at h
  · rename_i hspace
    rw [List.eq_of_mem_replicate h]
    refine ⟨rfl, rfl, ?_⟩
    rw [cell] at hspace
    split_ifs at hspace with htab hblank
    · exact .inr ⟨htab ▸ by decide, rfl⟩
    · exact .inr ⟨hblank, rfl⟩
    · exact .inl (congrArg String.singleton hspace.symm)
  · rename_i hspace
    rw [List.mem_singleton.mp h]
    refine ⟨rfl, rfl, .inl ?_⟩
    rw [cell] at hspace ⊢
    split_ifs at hspace ⊢ with htab hblank
    · exact absurd rfl hspace
    · exact absurd rfl hspace
    · rfl

theorem getElem?_of_dropBlanksRight {c : Char} (h : (dropBlanksRight chars)[index]? = some c) :
    chars[index]? = some c := by
  have hprefix : dropBlanksRight chars <+: chars := List.rdropWhile_prefix isBlank chars
  obtain ⟨blanks, hchars⟩ := hprefix
  rw [← hchars, List.getElem?_append_left (List.getElem?_eq_some_iff.mp h).1]
  exact h

theorem part_of_mem_header (h : p ∈ header o) : p.part = .other := by
  simp only [header, List.mem_cons, List.not_mem_nil, or_false] at h
  obtain rfl | rfl | rfl := h <;> rfl

theorem Drawn.of_source (h : Drawn width o source p) (hpart : p.part = .source index) :
    ∃ label c, o.label = some label ∧ label.fit source.toList.length = .inside ∧
      (dropBlanksRight source.toList)[index]? = some c ∧ p ∈ sourceAt width label (c, index) := by
  cases h with
  | furniture h => rw [(furniture_other p h).1] at hpart; cases hpart
  | header h => rw [part_of_mem_header h] at hpart; cases hpart
  | source hlabel hfit hchar h =>
    rw [(of_mem_sourceAt h).1] at hpart
    cases hpart
    exact ⟨_, _, hlabel, hfit, hchar, h⟩
  | place | message | help | note => cases hpart

theorem labelledExcerpt_countsCharacters : (labelledExcerpt width).CountsCharacters where
  place o source _ p drawn part := by
    cases drawn_of_mem drawn with
    | furniture h => rw [(furniture_other p h).1] at part; cases part
    | header h => rw [part_of_mem_header h] at part; cases part
    | place => rfl
    | source _ _ _ h => rw [(of_mem_sourceAt h).1] at part; cases part
    | message | help | note => cases part
  exists_place o source _ label labelled inside _ := by
    have hplace : ⟨.place, .own none, Report.place o.filename o.offset⟩ ∈ location o := by
      simp [location]
    exact ⟨_, location_subset labelled inside hplace, rfl⟩
  depicts o source _ p drawn index part := by
    obtain ⟨label, c, -, -, hchar, h⟩ := (drawn_of_mem drawn).of_source part
    exact ⟨c, getElem?_of_dropBlanksRight hchar, (of_mem_sourceAt h).2.2⟩
  covers o source _ label labelled index highlight := by
    obtain ⟨p, drawn, part, hink⟩ := highlight
    obtain ⟨_, c, hlabel, hfit, -, h⟩ := (drawn_of_mem drawn).of_source part
    cases hlabel.symm.trans labelled
    rw [(of_mem_sourceAt h).2.1, sourceInk] at hink
    split_ifs at hink with hcovers
    exact ⟨Label.inside_of_fit (hcovers.1.trans hcovers.2.le) hfit, hcovers⟩
  highlights o source _ label labelled inside index covered drawn := by
    have hsome : sourceAt width label ((dropBlanksRight source.toList)[index], index) ≠ [] :=
      sourceAt_ne_nil _
    obtain ⟨p, hp⟩ := List.exists_mem_of_ne_nil _ hsome
    obtain ⟨hpart, hink, -⟩ := of_mem_sourceAt hp
    refine ⟨p, sourceAt_subset labelled inside (List.getElem?_eq_getElem drawn) hp, hpart, ?_⟩
    rw [hink, sourceInk, if_pos covered]

theorem labelledExcerpt_addsNoEscapes : (labelledExcerpt width).AddsNoEscapes := by
  intro o source hplain hsource p drawn
  cases drawn_of_mem drawn with
  | furniture h => exact (furniture_other p h).2
  | header h =>
    have hword : Unescaped (severityWord o.severity) := by cases o.severity <;> decide
    simp only [header, List.mem_cons, List.not_mem_nil, or_false] at h
    obtain rfl | rfl | rfl := h
    · cases hcode : o.code with
      | none => exact hword
      | some code =>
        simp only [tinted, inked, unescaped_append]
        exact ⟨⟨⟨by decide, hplain.code code hcode⟩, by decide⟩, hword⟩
    · refine unescaped_append.mpr ⟨by decide, ?_⟩
      cases hmessage : o.message with
      | none => exact (by decide : Unescaped "")
      | some text => exact hplain.message text hmessage
    · exact (by decide : Unescaped "\n")
  | place =>
    simp only [place, unescaped_append]
    exact ⟨⟨hplain.filename, by decide⟩, unescaped_toString _⟩
  | source _ _ hchar h =>
    obtain ⟨-, -, htext | ⟨-, htext⟩⟩ := of_mem_sourceAt h
    · rw [htext, Unescaped, String.toList_singleton, List.mem_singleton]
      rintro rfl
      exact hsource (List.mem_of_getElem? (getElem?_of_dropBlanksRight hchar))
    · rw [htext]
      decide
  | message hlabel => exact unescaped_append.mpr ⟨by decide, hplain.label _ hlabel⟩
  | help h => exact unescaped_append.mpr ⟨by decide, hplain.help _ h⟩
  | note h => exact unescaped_append.mpr ⟨by decide, hplain.note _ h⟩

theorem shows_append (before text after : String) : Shows (before ++ text ++ after) text :=
  ⟨before.toList, after.toList, by simp⟩

theorem shows_advice (word text : String) : ∃ p ∈ adviceLines word (some text), Shows p.text text :=
  ⟨plain (": " ++ text), by simp [adviceLines], by
    simpa [plain, inked] using shows_append ": " text ""⟩

theorem labelledExcerpt_showsParts : (labelledExcerpt width).ShowsParts where
  message o source text given := by
    refine ⟨plain (" " ++ text), header_subset (by simp [header, given]), ?_⟩
    simpa [plain, inked] using shows_append " " text ""
  code o source text given := by
    have hmem : tinted o.severity.colour ("[" ++ text ++ "] " ++ severityWord o.severity) ∈ header o := by
      simp [header, given]
    refine ⟨_, header_subset hmem, ?_⟩
    simpa [tinted, inked, String.append_assoc] using
      shows_append "[" text ("] " ++ severityWord o.severity)
  note o source _ label labelled inside text given := by
    obtain ⟨p, hp, hshows⟩ := shows_advice "Note" text
    refine ⟨p, closing_subset labelled inside ?_, hshows⟩
    simp only [closing, List.mem_append, given]
    exact .inl (.inr hp)
  help o source _ label labelled inside text given := by
    obtain ⟨p, hp, hshows⟩ := shows_advice "Help" text
    refine ⟨p, closing_subset labelled inside ?_, hshows⟩
    simp only [closing, List.mem_append, given]
    exact .inl (.inl hp)

end Report

end LoopNest
