import LoopNest.Proofs.Failure
import LoopNest.Settings.FileTree
import Mathlib.Data.List.Infix
import Mathlib.Data.List.TakeWhile

/-! Where paths lead. In a tree without links the spelling of a path decides its location: names are
added one by one, `..` takes the last one away, and nothing else counts. Dropping the last component
of a path follows its spelling, so it passes the locations where the path has been, which are
ancestors of its own only as long as no name was taken away. -/

namespace LoopNest

namespace AbsolutePath

/-- One component further. A location is its names from the innermost outwards. -/
def follow (location : List String) (component : String) : List String :=
  if isStill component then location
  else if component = ".." then location.tail
  else component :: location

/-- Where the path leads; what is left of the names when some are dropped are the ancestors. -/
def location (p : AbsolutePath) : List String := p.components.foldl follow []

theorem follow_of_isStill {component : String} (h : isStill component) (location : List String) :
    follow location component = location := if_pos h

theorem follow_parent (location : List String) : follow location ".." = location.tail := rfl

theorem follow_name {component : String} (hstill : isStill component = false)
    (hparent : component ≠ "..") (location : List String) :
    follow location component = component :: location := by
  rw [follow, if_neg (by simp [hstill]), if_neg hparent]

theorem foldl_follow_of_isStill {components : List String} (h : ∀ c ∈ components, isStill c)
    (location : List String) : components.foldl follow location = location := by
  induction components with
  | nil => rfl
  | cons c components ih =>
    obtain ⟨hc, hrest⟩ := List.forall_mem_cons.mp h
    rw [List.foldl_cons, follow_of_isStill hc, ih hrest]

theorem exists_dropStill_append (components : List String) :
    ∃ still, components = dropStill components ++ still ∧ ∀ c ∈ still, isStill c := by
  refine ⟨(components.reverse.takeWhile isStill).reverse, ?_, fun c hc => ?_⟩
  · rw [dropStill, ← List.reverse_append, List.takeWhile_append_dropWhile, List.reverse_reverse]
  · exact List.mem_takeWhile_imp (List.mem_reverse.mp hc)

theorem isStill_of_getLast?_dropStill {components : List String} {c : String}
    (h : (dropStill components).getLast? = some c) : isStill c = false := by
  rw [dropStill, List.getLast?_reverse] at h
  have hhead := List.head?_dropWhile_not isStill components.reverse
  rw [h] at hhead
  simpa using hhead

variable {p q : AbsolutePath}

theorem exists_of_parent? (h : p.parent? = some q) :
    ∃ before c after, p.components = q.components ++ (before ++ c :: after) ∧
      (∀ x ∈ before, isStill x) ∧ isStill c = false ∧ ∀ x ∈ after, isStill x := by
  obtain ⟨after, hafter, hafterStill⟩ := exists_dropStill_append p.components
  rw [parent?] at h
  split at h
  · cases h
  · rename_i first rest hdrop
    cases h
    obtain ⟨init, c, hlast⟩ : ∃ init c, first :: rest = init ++ [c] :=
      ⟨_, _, (List.dropLast_append_getLast (List.cons_ne_nil first rest)).symm⟩
    obtain ⟨before, hbefore, hbeforeStill⟩ := exists_dropStill_append init
    rw [hlast] at hdrop ⊢
    rw [List.dropLast_concat]
    refine ⟨before, c, after, ?_, hbeforeStill, ?_, hafterStill⟩
    · conv_lhs => rw [hafter, hdrop, hbefore]
      simp
    · have hlast : (dropStill p.components).getLast? = some c := by simp [hdrop]
      exact isStill_of_getLast?_dropStill hlast

theorem getLast?_of_parent? (h : p.parent? = some q) : q.components.getLast? ≠ some "" := by
  intro hlast
  rw [parent?] at h
  split at h
  · cases h
  · cases h
    exact absurd (isStill_of_getLast?_dropStill hlast) (by decide)

theorem location_of_parent?_eq_none (h : p.parent? = none) : p.location = [] := by
  obtain ⟨still, hcomponents, hstill⟩ := exists_dropStill_append p.components
  rw [parent?] at h
  split at h
  · rename_i hdrop
    rw [hdrop, List.nil_append] at hcomponents
    rw [location, hcomponents, foldl_follow_of_isStill hstill]
  · cases h

theorem exists_follow_of_parent? (h : p.parent? = some q) :
    ∃ c, isStill c = false ∧ c ∈ p.components ∧ p.location = follow q.location c := by
  obtain ⟨before, c, after, hcomponents, hbefore, hc, hafter⟩ := exists_of_parent? h
  refine ⟨c, hc, by simp [hcomponents], ?_⟩
  rw [location, hcomponents, List.foldl_append, List.foldl_append, List.foldl_cons,
    foldl_follow_of_isStill hbefore, foldl_follow_of_isStill hafter, location]

theorem prefix_of_parent? (h : p.parent? = some q) : q.components <+: p.components.dropLast := by
  obtain ⟨before, c, after, hcomponents, -⟩ := exists_of_parent? h
  rw [hcomponents, List.dropLast_append_of_ne_nil (by simp)]
  exact List.prefix_append ..

theorem withAncestors_of_none (h : p.parent? = none) : p.withAncestors = [p] := by
  rw [withAncestors]
  split
  · rfl
  · rename_i q hq
    rw [h] at hq
    cases hq

theorem withAncestors_of_some (h : p.parent? = some q) :
    p.withAncestors = p :: q.withAncestors := by
  rw [withAncestors]
  split
  · rename_i hq
    rw [h] at hq
    cases hq
  · rename_i q' hq
    rw [h] at hq
    cases hq
    rfl

theorem exists_withAncestors_eq_cons (p : AbsolutePath) : ∃ rest, p.withAncestors = p :: rest := by
  cases h : p.parent? with
  | none => exact ⟨[], withAncestors_of_none h⟩
  | some q => exact ⟨_, withAncestors_of_some h⟩

theorem mem_withAncestors (h : q ∈ p.withAncestors) :
    q = p ∨ q.components <+: p.components.dropLast ∧ q.components.getLast? ≠ some "" := by
  induction p using withAncestors.induct with
  | case1 p hparent =>
    rw [withAncestors_of_none hparent, List.mem_singleton] at h
    exact .inl h
  | case2 p parent hparent ih =>
    rw [withAncestors_of_some hparent, List.mem_cons] at h
    obtain rfl | h := h
    · exact .inl rfl
    · obtain rfl | ⟨hbegin, hlast⟩ := ih h
      · exact .inr ⟨prefix_of_parent? hparent, getLast?_of_parent? hparent⟩
      · exact .inr ⟨hbegin.trans ((List.dropLast_prefix _).trans (prefix_of_parent? hparent)),
          hlast⟩

section Marked

variable {marked : List String → Bool} {names : List String}

theorem find?_tails_of_marked (h : marked names) : names.tails.find? marked = some names := by
  cases names with
  | nil => simp [h]
  | cons name names => simp [h]

theorem find?_map_of_marked (h : marked p.location) :
    (p.withAncestors.map location).find? marked = some p.location := by
  obtain ⟨rest, hrest⟩ := exists_withAncestors_eq_cons p
  rw [hrest, List.map_cons, List.find?_cons_of_pos h]

theorem find?_tails_tail (h : names ≠ [] → ¬marked names) :
    names.tail.tails.find? marked = names.tails.find? marked := by
  cases names with
  | nil => rfl
  | cons name names => simp [h (List.cons_ne_nil name names)]

/-- While components are dropped, the first marked location on the way is the nearest marked ancestor,
provided that it is an ancestor at all: the way from one location to another passes all between. -/
theorem find?_map_location_withAncestors
    (h : ∀ names, (p.withAncestors.map location).find? marked = some names →
      names <:+ p.location) :
    (p.withAncestors.map location).find? marked = p.location.tails.find? marked := by
  induction p using withAncestors.induct with
  | case1 p hparent =>
    rw [withAncestors_of_none hparent, location_of_parent?_eq_none hparent]
    simp [location_of_parent?_eq_none hparent]
  | case2 p parent hparent ih =>
    obtain ⟨c, hc, -, hlocation⟩ := exists_follow_of_parent? hparent
    rw [withAncestors_of_some hparent, List.map_cons] at h ⊢
    by_cases hmarked : marked p.location
    · rw [List.find?_cons_of_pos hmarked, find?_tails_of_marked hmarked]
    rw [List.find?_cons_of_neg hmarked] at h ⊢
    by_cases hup : c = ".."
    · -- The parent lies below this location, so it is not marked.
      rw [hup, follow_parent] at hlocation
      rw [ih fun names hfirst => (hlocation ▸ h names hfirst).trans (List.tail_suffix _), hlocation]
      refine (find?_tails_tail fun hne hparentMarked => ?_).symm
      have hlength := (h parent.location (find?_map_of_marked hparentMarked)).length_le
      have hpos := List.length_pos_iff.mpr hne
      rw [hlocation, List.length_tail] at hlength
      omega
    · rw [follow_name hc hup] at hlocation
      have hrest : ∀ names, (parent.withAncestors.map location).find? marked = some names →
          names <:+ parent.location := fun names hfirst => by
        obtain heq | hsuffix := List.suffix_cons_iff.mp (hlocation ▸ h names hfirst)
        · exact absurd (hlocation ▸ heq ▸ List.find?_some hfirst) hmarked
        · exact hsuffix
      rw [ih hrest, ← find?_tails_tail fun _ => hmarked, hlocation, List.tail_cons]

theorem location_suffix_of_no_parent (hup : ".." ∉ p.components) (hq : q ∈ p.withAncestors) :
    q.location <:+ p.location := by
  induction p using withAncestors.induct with
  | case1 p hparent =>
    rw [withAncestors_of_none hparent, List.mem_singleton] at hq
    exact hq ▸ List.suffix_rfl
  | case2 p parent hparent ih =>
    rw [withAncestors_of_some hparent, List.mem_cons] at hq
    obtain rfl | hq := hq
    · exact List.suffix_rfl
    obtain ⟨c, hc, hmem, hlocation⟩ := exists_follow_of_parent? hparent
    have hsub := (prefix_of_parent? hparent).trans (List.dropLast_prefix _)
    rw [hlocation, follow_name hc fun heq => hup (heq ▸ hmem)]
    exact (ih fun hmem => hup (hsub.subset hmem) ) hq |>.trans (List.suffix_cons ..)

end Marked

end AbsolutePath

namespace FileTree

open AbsolutePath

def at? (root : FileTree) : List String → Option FileTree
  | [] => some root
  | name :: location =>
    match root.at? location with
    | some (.directory entries) => entries.lookup name
    | _ => none

/-- What lies at a location, and the directories above it, nearest first. -/
inductive Trail (root : FileTree) : List String → FileTree → List FileTree → Prop where
  | root : Trail root [] root []
  | entry {location : List String} {entries : List (String × FileTree)} {above : List FileTree}
    {name : String} {child : FileTree} (h : Trail root location (.directory entries) above)
    (hchild : entries.lookup name = some child) :
    Trail root (name :: location) child (.directory entries :: above)

variable {root here found : FileTree} {above : List FileTree} {names components : List String}

theorem Trail.at?_eq (h : Trail root names here above) : root.at? names = some here := by
  induction h with
  | root => rfl
  | entry _ hchild ih =>
    rw [at?, ih]
    exact hchild

def enter (above : List FileTree) (component : String) :
    FileTree → Except ReadFailure (FileTree × List FileTree)
  | .file _ => .error .notDirectory
  | .directory entries =>
    if isStill component then .ok (.directory entries, above)
    else if component = ".." then .ok (above.headD (.directory entries), above.tail)
    else if maxNameBytes < component.utf8ByteSize then .error .nameTooLong
    else
      match entries.lookup component with
      | some child => .ok (child, .directory entries :: above)
      | none => .error .notFound

theorem walk_cons (here : FileTree) (above : List FileTree) (c : String)
    (components : List String) :
    here.walk above (c :: components) =
      (here.enter above c).bind fun (next, above) => next.walk above components := by
  cases here with
  | file content => rfl
  | directory entries =>
    cases above
    all_goals
      rw [walk, enter]
      split
      · rfl
      split
      · rfl
      split
      · rfl
      cases entries.lookup c <;> rfl

theorem Trail.enter {c : String} {next : FileTree} {above' : List FileTree}
    (h : Trail root names here above) (henter : here.enter above c = .ok (next, above')) :
    Trail root (follow names c) next above' := by
  cases here with
  | file content => cases henter
  | directory entries =>
    rw [FileTree.enter] at henter
    rw [follow]
    split at henter
    · cases henter
      rwa [if_pos (by assumption)]
    rw [if_neg (by assumption)]
    split at henter
    · cases henter
      rw [if_pos (by assumption)]
      cases h with
      | root => exact .root
      | entry h hchild => exact h
    rw [if_neg (by assumption)]
    split at henter
    · cases henter
    split at henter
    · cases henter
      exact .entry h (by assumption)
    · cases henter

theorem Trail.walk (h : Trail root names here above)
    (hwalk : here.walk above components = .ok found) :
    ∃ above', Trail root (components.foldl follow names) found above' ∧
      ∀ rest, here.walk above (components ++ rest) = found.walk above' rest := by
  induction components generalizing names here above with
  | nil =>
    rw [FileTree.walk] at hwalk
    cases hwalk
    exact ⟨above, h, fun rest => rfl⟩
  | cons c components ih =>
    rw [walk_cons] at hwalk
    obtain ⟨⟨next, above'⟩, henter, hwalk⟩ := bind_eq_ok_iff.mp hwalk
    obtain ⟨above'', htrail, hrest⟩ := ih (h.enter henter) hwalk
    refine ⟨above'', htrail, fun rest => ?_⟩
    rw [List.cons_append, walk_cons, henter]
    exact hrest rest

theorem at?_of_walk (h : root.walk [] components = .ok found) :
    root.at? (components.foldl follow []) = some found := by
  obtain ⟨above', htrail, -⟩ := Trail.root.walk h
  exact htrail.at?_eq

end FileTree

end LoopNest
