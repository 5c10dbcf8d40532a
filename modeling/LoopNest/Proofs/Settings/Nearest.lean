import LoopNest.Proofs.Settings.Location
import LoopNest.Settings.FileTree
import Mathlib.Algebra.Ring.Nat

/-! Which settings file is found. The search asks for a settings file in one directory after another
while components of the starting path are dropped. It finds the nearest one exactly when the first
that it meets is in an ancestor of the starting directory; a path that takes a name away with `..`
leads it through directories that are none. -/

namespace LoopNest

namespace AbsolutePath

variable {p q : AbsolutePath} {components : List String}

theorem mem_text {c : Char} :
    c ∈ p.text.toList ↔ c = '/' ∨ ∃ component ∈ p.components, c ∈ component.toList := by
  obtain ⟨components⟩ := p
  have hslash : "/".toList = ['/'] := rfl
  rw [text, String.toList_append, hslash, String.toList_intercalate, hslash, List.singleton_append,
    List.mem_cons, or_congr_right']
  intro hc
  show c ∈ List.intercalate ['/'] (components.map String.toList) ↔ ∃ x ∈ components, c ∈ x.toList
  induction components with
  | nil => simp
  | cons component components ih =>
    cases components with
    | nil => simp
    | cons next rest =>
      rw [List.map_cons, List.map_cons, List.intercalate_cons_cons, ← List.map_cons,
        List.mem_append, List.mem_append, ih, List.mem_singleton, or_iff_left hc]
      simp only [List.exists_mem_cons_iff]

theorem utf8ByteSize_text (h : components ≠ []) :
    (text ⟨components⟩).utf8ByteSize = (components.map (·.utf8ByteSize + 1)).sum := by
  have hslash : "/".utf8ByteSize = 1 := rfl
  rw [text, String.utf8ByteSize_append, hslash]
  show 1 + ("/".intercalate components).utf8ByteSize = _
  induction components with
  | nil => exact absurd rfl h
  | cons component components ih =>
    cases components with
    | nil =>
      rw [String.intercalate_singleton, List.map_singleton, List.sum_singleton]
      exact Nat.add_comm ..
    | cons next rest =>
      rw [String.intercalate_cons_cons, String.utf8ByteSize_append, String.utf8ByteSize_append,
        hslash, List.map_cons, List.sum_cons, ← ih (List.cons_ne_nil next rest)]
      omega

def stem (p : AbsolutePath) : List String :=
  if p.components.getLast? = some "" then p.components.dropLast else p.components

theorem components_join (p : AbsolutePath) (name : String) :
    (p.join name).components = p.stem ++ [name] := by
  rw [join, stem]
  split <;> rfl

theorem stem_prefix (p : AbsolutePath) : p.stem <+: p.components := by
  rw [stem]
  split
  · exact List.dropLast_prefix _
  · exact List.prefix_rfl

theorem dropLast_prefix_stem (p : AbsolutePath) : p.components.dropLast <+: p.stem := by
  rw [stem]
  split
  · exact List.prefix_rfl
  · exact List.dropLast_prefix _

theorem stem_prefix_of_mem_withAncestors (h : q ∈ p.withAncestors) : q.stem <+: p.stem := by
  obtain rfl | ⟨hbegin, hlast⟩ := mem_withAncestors h
  · exact List.prefix_rfl
  · rw [stem, if_neg hlast]
    exact hbegin.trans p.dropLast_prefix_stem

theorem foldl_follow_stem (p : AbsolutePath) : p.stem.foldl follow [] = p.location := by
  rw [stem, location]
  split
  · rename_i hlast
    obtain ⟨init, hinit⟩ := List.getLast?_eq_some_iff.mp hlast
    rw [hinit, List.dropLast_concat, List.foldl_append]
    rfl
  · rfl

theorem location_join (p : AbsolutePath) : (p.join settingsFileName).location =
    settingsFileName :: p.location := by
  rw [location, components_join, List.foldl_append, foldl_follow_stem]
  rfl

theorem utf8ByteSize_text_join_le (name : String) (h : q ∈ p.withAncestors) :
    (q.join name).text.utf8ByteSize ≤ (p.join name).text.utf8ByteSize := by
  obtain ⟨rest, hrest⟩ := stem_prefix_of_mem_withAncestors h
  have hsize : ∀ r : AbsolutePath, (r.join name).text.utf8ByteSize =
      ((r.stem ++ [name]).map (·.utf8ByteSize + 1)).sum := fun r => by
    rw [← r.components_join, ← utf8ByteSize_text (by simp [components_join])]
  rw [hsize, hsize, ← hrest]
  simp only [List.map_append, List.sum_append]
  omega

theorem mem_text_of_mem_text_join {c : Char} (hq : q ∈ p.withAncestors)
    (h : c ∈ (q.join settingsFileName).text.toList) :
    c ∈ p.text.toList ∨ c ∈ settingsFileName.toList := by
  rw [mem_text, components_join] at h
  obtain hslash | ⟨component, hcomponent, hc⟩ := h
  · exact .inl (mem_text.mpr (.inl hslash))
  obtain hstem | hname := List.mem_append.mp hcomponent
  · have hmem := ((stem_prefix_of_mem_withAncestors hq).trans p.stem_prefix).subset hstem
    exact .inl (mem_text.mpr (.inr ⟨component, hmem, hc⟩))
  · exact .inr (List.mem_singleton.mp hname ▸ hc)

end AbsolutePath

namespace FileTree

open AbsolutePath

variable {root here found : FileTree} {above : List FileTree} {start p q : AbsolutePath}
  {components rest : List String} {entries : List (String × FileTree)}

theorem resolve_eq_ok_iff : root.resolve p = .ok found ↔
    '\x00' ∉ p.text.toList ∧ p.text.utf8ByteSize ≤ maxPathBytes ∧
      root.walk [] p.components = .ok found := by
  rw [resolve]
  split
  · rename_i hnul
    simp [List.contains_iff_mem.mp hnul]
  split
  · rename_i hlong
    simp [Nat.not_le.mpr hlong]
  · rename_i hnul hlong
    simp [mt List.contains_iff_mem.mpr hnul, Nat.not_lt.mp hlong]

theorem exists_eq_directory_of_walk (h : here.walk above rest = .ok (.directory entries)) :
    ∃ passed, here = .directory passed := by
  cases here with
  | file content => cases rest <;> cases h
  | directory passed => exact ⟨passed, rfl⟩

theorem exists_walk_eq_directory_of_append
    (h : here.walk above (components ++ rest) = .ok (.directory entries)) :
    ∃ passed, here.walk above components = .ok (.directory passed) := by
  induction components generalizing here above with
  | nil =>
    obtain ⟨passed, rfl⟩ := exists_eq_directory_of_walk h
    exact ⟨passed, by rw [walk]⟩
  | cons c components ih =>
    rw [List.cons_append, walk_cons] at h
    obtain ⟨⟨next, above'⟩, henter, hwalk⟩ := bind_eq_ok_iff.mp h
    obtain ⟨passed, hpassed⟩ := ih hwalk
    exact ⟨passed, by rw [walk_cons, henter]; exact hpassed⟩

theorem walk_settingsFileName (h : root.walk [] components = .ok (.directory entries)) :
    root.walk [] (components ++ [settingsFileName]) = .ok found ↔
      root.at? (settingsFileName :: components.foldl follow []) = some found := by
  obtain ⟨above, htrail, hrest⟩ := Trail.root.walk h
  have hlast : (FileTree.directory entries).walk above [settingsFileName] =
      (entries.lookup settingsFileName).elim (.error .notFound) .ok := by
    rw [walk_cons, enter, if_neg (by decide), if_neg (by decide), if_neg (by decide)]
    cases entries.lookup settingsFileName <;> rfl
  rw [hrest, hlast, at?, htrail.at?_eq]
  cases hlookup : entries.lookup settingsFileName <;> simp [hlookup]

def holdsSettings (root : FileTree) (location : List String) : Bool :=
  (root.at? (settingsFileName :: location)).isSome

def nearest? (root : FileTree) (location : List String) : Option (List String) :=
  location.tails.find? root.holdsSettings

/-- Whether a path can be looked up, and what is found is what lies at the location. -/
def LeadsTo (root : FileTree) (p : AbsolutePath) (location : List String) : Prop :=
  p.location = location ∧ ∃ found, root.resolve p = .ok found ∧ root.at? location = some found

theorem leadsTo_of_exists? (h : root.exists? p) : root.LeadsTo p p.location := by
  obtain ⟨found, hfound⟩ := Option.isSome_iff_exists.mp h
  have hresolve : root.resolve p = .ok found := by
    cases hp : root.resolve p <;> simp [hp, Except.toOption] at hfound ⊢
    exact hfound
  exact ⟨rfl, found, hresolve, at?_of_walk (resolve_eq_ok_iff.mp hresolve).2.2⟩

theorem holdsSettings_of_exists?_join (h : root.exists? (p.join settingsFileName)) :
    root.holdsSettings p.location := by
  obtain ⟨-, found, -, hfound⟩ := leadsTo_of_exists? h
  rw [location_join] at hfound
  exact Option.isSome_of_eq_some hfound

theorem exists?_join (h : root.resolve start = .ok (.directory entries))
    (hq : q ∈ start.withAncestors)
    (hlength : (start.join settingsFileName).text.utf8ByteSize ≤ maxPathBytes) :
    root.exists? (q.join settingsFileName) = root.holdsSettings q.location := by
  rw [Bool.eq_iff_iff]
  refine ⟨holdsSettings_of_exists?_join, fun hholds => ?_⟩
  obtain ⟨found, hfound⟩ := Option.isSome_iff_exists.mp hholds
  obtain ⟨hnul, -, hwalk⟩ := resolve_eq_ok_iff.mp h
  obtain ⟨rest, hrest⟩ := (stem_prefix_of_mem_withAncestors hq).trans start.stem_prefix
  obtain ⟨passed, hpassed⟩ := exists_walk_eq_directory_of_append (hrest ▸ hwalk)
  have hjoin : root.resolve (q.join settingsFileName) = .ok found := by
    refine resolve_eq_ok_iff.mpr ⟨fun hmem => ?_, ?_, ?_⟩
    · obtain hstart | hname := mem_text_of_mem_text_join hq hmem
      · exact hnul hstart
      · exact absurd hname (by decide)
    · exact (utf8ByteSize_text_join_le settingsFileName hq).trans hlength
    · rw [components_join, walk_settingsFileName hpassed, foldl_follow_stem, hfound]
  rw [exists?, hjoin]
  rfl

end FileTree

namespace LaunchSettings

open AbsolutePath FileTree

variable {root : FileTree} {start : AbsolutePath} {entries : List (String × FileTree)}

/-- Whether the first directory that holds settings, of those passed while components of a path are
dropped, is the one that the path leads to or an ancestor of it. -/
def MeetsAncestor (root : FileTree) (start : AbsolutePath) : Prop :=
  ∀ q, start.withAncestors.find? (root.holdsSettings ∘ location) = some q →
    q.location <:+ start.location

/-- Whether a search finds the settings of the nearest directory that has some, or none when none
has. -/
def FindsNearest (root : FileTree) (start : AbsolutePath) : Prop :=
  (∀ directory, root.nearest? start.location = some directory →
    ∃ p, find? root start = some p ∧ root.LeadsTo p (settingsFileName :: directory)) ∧
  (root.nearest? start.location = none → find? root start = none)

theorem find?_eq_map (h : root.resolve start = .ok (.directory entries))
    (hlength : (start.join settingsFileName).text.utf8ByteSize ≤ maxPathBytes) :
    find? root start =
      (start.withAncestors.find? (root.holdsSettings ∘ location)).map
        (·.join settingsFileName) := by
  have hsame : start.withAncestors.filter (root.exists? ∘ (·.join settingsFileName)) =
      start.withAncestors.filter (root.holdsSettings ∘ location) :=
    List.filter_congr fun q hq => exists?_join h hq hlength
  rw [find?, List.find?_map, ← List.head?_filter, ← List.head?_filter, hsame]

theorem find?_of_first (h : root.resolve start = .ok (.directory entries))
    (hlength : (start.join settingsFileName).text.utf8ByteSize ≤ maxPathBytes) {q : AbsolutePath}
    (hfirst : start.withAncestors.find? (root.holdsSettings ∘ location) = some q) :
    find? root start = some (q.join settingsFileName) := by
  rw [find?_eq_map h hlength, hfirst]
  rfl

theorem nearest?_eq_map (h : MeetsAncestor root start) :
    root.nearest? start.location =
      (start.withAncestors.find? (root.holdsSettings ∘ location)).map location := by
  rw [nearest?, ← find?_map_location_withAncestors, List.find?_map]
  intro names hnames
  rw [List.find?_map, Option.map_eq_some_iff] at hnames
  obtain ⟨q, hq, rfl⟩ := hnames
  exact h q hq

theorem exists_of_find? {p : AbsolutePath} (h : find? root start = some p) :
    ∃ q ∈ start.withAncestors, p = q.join settingsFileName ∧ root.LeadsTo p p.location := by
  obtain ⟨q, hq, rfl⟩ := List.mem_map.mp (List.mem_of_find?_eq_some h)
  exact ⟨q, hq, rfl, leadsTo_of_exists? (List.find?_some h)⟩

theorem meetsAncestor_iff (h : root.resolve start = .ok (.directory entries))
    (hlength : (start.join settingsFileName).text.utf8ByteSize ≤ maxPathBytes) :
    MeetsAncestor root start ↔ FindsNearest root start := by
  constructor
  · intro hmeets
    rw [FindsNearest, nearest?_eq_map hmeets, find?_eq_map h hlength]
    cases hfirst : start.withAncestors.find? (root.holdsSettings ∘ location) with
    | none => exact ⟨fun directory hsome => (nomatch hsome), fun _ => rfl⟩
    | some q =>
      refine ⟨fun directory hdirectory => ⟨_, rfl, ?_⟩, fun hnone => (nomatch hnone)⟩
      cases hdirectory
      obtain ⟨-, -, -, hleads⟩ := exists_of_find? (find?_of_first h hlength hfirst)
      exact q.location_join ▸ hleads
  · rintro ⟨hsome, hnone⟩ q hfirst
    have hfound := find?_of_first h hlength hfirst
    cases hnearest : root.nearest? start.location with
    | none => exact absurd (hfound.symm.trans (hnone hnearest)) (Option.some_ne_none _)
    | some directory =>
      obtain ⟨p, hp, hlocation, -⟩ := hsome directory hnearest
      cases hfound.symm.trans hp
      rw [location_join] at hlocation
      exact (List.cons.inj hlocation).2 ▸
        (List.mem_tails _ _).mp (List.mem_of_find?_eq_some hnearest)

/-- The search starts at the directory that the path names. From a path without `..` it never finds
the settings of a directory that is not an ancestor. When the path to a settings file in the directory
itself is not too long, the search finds the nearest settings if and only if the first ones that it
passes are those of an ancestor, which is the case for every path without `..`. -/
theorem find?_nearest (h : root.resolve start = .ok (.directory entries)) :
    root.at? start.location = some (.directory entries) ∧
    (".." ∉ start.components → MeetsAncestor root start ∧
      ∀ p, find? root start = some p →
        ∃ directory, directory <:+ start.location ∧
          root.LeadsTo p (settingsFileName :: directory)) ∧
    ((start.join settingsFileName).text.utf8ByteSize ≤ maxPathBytes →
      (MeetsAncestor root start ↔ FindsNearest root start)) := by
  refine ⟨at?_of_walk (resolve_eq_ok_iff.mp h).2.2, fun hup => ⟨fun q hq => ?_, fun p hp => ?_⟩,
    meetsAncestor_iff h⟩
  · exact location_suffix_of_no_parent hup (List.mem_of_find?_eq_some hq)
  · obtain ⟨q, hq, rfl, hleads⟩ := exists_of_find? hp
    exact ⟨q.location, location_suffix_of_no_parent hup hq, q.location_join ▸ hleads⟩

def twoDirectories : FileTree :=
  .directory [("a", .directory [("ndloop.toml", .file .empty)]), ("b", .directory [])]

theorem find?_nearest_detour :
    ∃ p, find? twoDirectories ⟨["b", "..", "a", "", ""]⟩ = some p ∧
      twoDirectories.LeadsTo p ["ndloop.toml", "a"] := by
  have hstart : twoDirectories.resolve ⟨["b", "..", "a", "", ""]⟩ =
      .ok (.directory [("ndloop.toml", .file .empty)]) := rfl
  obtain ⟨-, -, hright⟩ := find?_nearest hstart
  have hpassed : withAncestors ⟨["b", "..", "a", "", ""]⟩ =
      [⟨["b", "..", "a", "", ""]⟩, ⟨["b", ".."]⟩, ⟨["b"]⟩, ⟨[]⟩] := by
    rw [withAncestors_of_some (q := ⟨["b", ".."]⟩) rfl, withAncestors_of_some (q := ⟨["b"]⟩) rfl,
      withAncestors_of_some (q := ⟨[]⟩) rfl, withAncestors_of_none rfl]
  have hmeets : MeetsAncestor twoDirectories ⟨["b", "..", "a", "", ""]⟩ := by
    rw [MeetsAncestor, hpassed]
    rintro q ⟨⟩
    exact List.suffix_rfl
  exact ((hright (by decide)).mp hmeets).1 ["a"] rfl

/-- The path leads to `b`, and neither `b` nor the root has settings; those of `a`, which the path
has been in, are found. -/
theorem find?_enters_sibling :
    twoDirectories.resolve ⟨["a", "..", "b"]⟩ = .ok (.directory []) ∧
      location ⟨["a", "..", "b"]⟩ = ["b"] ∧ twoDirectories.nearest? ["b"] = none ∧
      find? twoDirectories ⟨["a", "..", "b"]⟩ = some ⟨["a", "ndloop.toml"]⟩ := by
  refine ⟨rfl, rfl, rfl, ?_⟩
  rw [find?, withAncestors_of_some (q := ⟨["a", ".."]⟩) rfl,
    withAncestors_of_some (q := ⟨["a"]⟩) rfl, withAncestors_of_some (q := ⟨[]⟩) rfl,
    withAncestors_of_none rfl]
  rfl

end LaunchSettings

end LoopNest
