import LoopNest.Proofs.Bound.Acceptance
import LoopNest.Proofs.Domain.Resolution

/-! The argument grammar of a range call. Splats only group: what counts are the leaves from left to
right, each with the place of the top-level argument it came from. A call is accepted if its leaves
are well formed and there are one to eight of them, and then they are its axes; otherwise the first
malformed leaf is reported before their number is. -/

namespace LoopNest

namespace RangeArg

mutual

def flatten : RangeArg → List LeafArg
  | .scalar upper => [.scalar upper]
  | .seq items => [.seq items]
  | .splat args => flattenAll args

def flattenAll : List RangeArg → List LeafArg
  | [] => []
  | a :: as => a.flatten ++ flattenAll as

end

/-- The leaves of a call with the places of the arguments that they belong to. -/
def tagged (args : List RangeArg) : List (LeafArg × Nat) :=
  args.zipIdx.flatMap fun (a, position) => a.flatten.map fun leaf => (leaf, position)

end RangeArg

def Leaf.tag (leaf : Leaf) : LeafArg × Nat := (leaf.arg, leaf.origin.position)

namespace RangeArg

mutual

theorem map_tag_leavesAt (position offset : Nat) (a : RangeArg) :
    (a.leavesAt position offset).map Leaf.tag = a.flatten.map fun leaf => (leaf, position) := by
  match a with
  | .scalar upper => rw [leavesAt, flatten]; rfl
  | .seq items => rw [leavesAt, flatten]; rfl
  | .splat args => rw [leavesAt, flatten, map_tag_splicedLeaves position (offset + 2) args]

theorem map_tag_splicedLeaves (position offset : Nat) (args : List RangeArg) :
    (splicedLeaves position offset args).map Leaf.tag =
      (flattenAll args).map fun leaf => (leaf, position) := by
  match args with
  | [] => rw [splicedLeaves, flattenAll]; rfl
  | a :: as =>
    rw [splicedLeaves, flattenAll, List.map_append, List.map_append,
      map_tag_leavesAt position offset a, map_tag_splicedLeaves position (a.nextOffset offset) as]

end

theorem map_tag_callLeaves (position offset : Nat) (args : List RangeArg) :
    (callLeaves position offset args).map Leaf.tag =
      (args.zipIdx position).flatMap fun (a, position) =>
        a.flatten.map fun leaf => (leaf, position) := by
  induction args generalizing position offset with
  | nil => rfl
  | cons a as ih =>
    rw [callLeaves, List.map_append, map_tag_leavesAt, ih, List.zipIdx_cons, List.flatMap_cons]

theorem map_tag_leaves (args : List RangeArg) : (leaves args).map Leaf.tag = tagged args :=
  map_tag_callLeaves 0 callHead.utf8ByteSize args

theorem map_fst_tagged (args : List RangeArg) : (tagged args).map Prod.fst = flattenAll args := by
  suffices hfrom : ∀ position, ((args.zipIdx position).flatMap fun (a, position) =>
      a.flatten.map fun leaf => (leaf, position)).map Prod.fst = flattenAll args from hfrom 0
  induction args with
  | nil => exact fun _ => rfl
  | cons a as ih =>
    intro position
    rw [List.zipIdx_cons, List.flatMap_cons, List.map_append, ih, flattenAll]
    simp [Function.comp_def]

end RangeArg

namespace LeafArg

/-- A scalar or a pair, with acceptable bounds. -/
def WellFormed : LeafArg → Prop
  | .scalar upper => upper.Acceptable
  | .seq items => items.length = 2 ∧ ∀ b ∈ items, b.Acceptable

def Denotes : LeafArg → AxisRange → Prop
  | .scalar upper, a => a = ⟨.int .zero, upper⟩
  | .seq items, a => items = [a.lower, a.upper]

def faultCode : LeafArg → DiagnosticCode
  | .scalar _ => .typeMismatch
  | .seq items => if items.length = 2 then .typeMismatch else .shapeError

theorem axis_eq_ok_iff {leaf : LeafArg} {a : AxisRange} :
    leaf.axis = .ok a ↔ leaf.WellFormed ∧ leaf.Denotes a := by
  cases leaf with
  | scalar upper =>
    rw [axis, bind_eq_ok_iff]
    constructor
    · rintro ⟨_, hupper, hpure⟩
      exact ⟨Bound.check_eq_ok_iff.mp hupper, (pure_eq_ok_iff.mp hpure).symm⟩
    · rintro ⟨hupper, rfl⟩
      exact ⟨(), Bound.check_eq_ok_iff.mpr hupper, rfl⟩
  | seq items =>
    match items with
    | [lower, upper] =>
      simp only [axis, bind_eq_ok_iff]
      constructor
      · rintro ⟨_, hlower, _, hupper, hpure⟩
        obtain rfl := pure_eq_ok_iff.mp hpure
        simp [WellFormed, Denotes, Bound.check_eq_ok_iff.mp hlower, Bound.check_eq_ok_iff.mp hupper]
      · rintro ⟨⟨-, hitems⟩, hdenotes⟩
        obtain ⟨rfl, rfl⟩ : lower = a.lower ∧ upper = a.upper := by simpa [Denotes] using hdenotes
        exact ⟨(), Bound.check_eq_ok_iff.mpr (hitems _ (by simp)), (),
          Bound.check_eq_ok_iff.mpr (hitems _ (by simp)), rfl⟩
    | [] => simp [axis, WellFormed]
    | [b] => simp [axis, WellFormed]
    | b₁ :: b₂ :: b₃ :: items => simp [axis, WellFormed]

theorem denotes_unique : Relator.RightUnique Denotes := by
  intro leaf a a' h h'
  cases leaf with
  | scalar upper => exact h.trans h'.symm
  | seq items =>
    cases a
    cases a'
    simpa [Denotes] using h.symm.trans h'

theorem acceptable_zero : Bound.Acceptable (.int .zero) := by
  intro part hpart
  obtain rfl := List.mem_singleton.mp hpart
  simp [Bound.IsFloating, Bound.IsOversized, IntLiteral.zero]

theorem Denotes.acceptable {leaf : LeafArg} {a : AxisRange} (h : leaf.Denotes a)
    (hleaf : leaf.WellFormed) : a.lower.Acceptable ∧ a.upper.Acceptable := by
  cases leaf with
  | scalar upper =>
    rw [Denotes] at h
    exact h ▸ ⟨acceptable_zero, hleaf⟩
  | seq items =>
    rw [Denotes] at h
    exact ⟨hleaf.2 _ (by simp [h]), hleaf.2 _ (by simp [h])⟩

theorem exists_axis {leaf : LeafArg} (h : leaf.WellFormed) : ∃ a, leaf.axis = .ok a := by
  cases leaf with
  | scalar upper => exact ⟨_, axis_eq_ok_iff.mpr ⟨h, rfl⟩⟩
  | seq items =>
    obtain ⟨lower, upper, rfl⟩ := List.length_eq_two.mp h.1
    exact ⟨⟨lower, upper⟩, axis_eq_ok_iff.mpr ⟨h, rfl⟩⟩

theorem code_of_check_eq_error {b : Bound} {fault : ArgumentFault} (h : b.check = .error fault)
    (source : String) (origin : AxisOrigin) :
    (DomainError.argumentDiagnostic source origin fault).code = some .typeMismatch := by
  cases fault with
  | components => exact absurd h Bound.check_ne_components
  | notInteger => rfl
  | tooLarge => rfl

theorem code_of_axis_eq_error {leaf : LeafArg} {fault : ArgumentFault}
    (h : leaf.axis = .error fault) (source : String) (origin : AxisOrigin) :
    (DomainError.argumentDiagnostic source origin fault).code = some leaf.faultCode := by
  cases leaf with
  | scalar upper =>
    obtain hupper | ⟨_, -, hpure⟩ := bind_eq_error_iff.mp h
    · exact code_of_check_eq_error hupper source origin
    · cases hpure
  | seq items =>
    match items with
    | [lower, upper] =>
      obtain hlower | ⟨_, -, h⟩ := bind_eq_error_iff.mp h
      · exact code_of_check_eq_error hlower source origin
      obtain hupper | ⟨_, -, hpure⟩ := bind_eq_error_iff.mp h
      · exact code_of_check_eq_error hupper source origin
      · cases hpure
    | [] => cases h; rfl
    | [b] => cases h; rfl
    | b₁ :: b₂ :: b₃ :: items => cases h; rfl

end LeafArg

theorem DomainError.position_argumentDiagnostic (source : String) (origin : AxisOrigin)
    (fault : ArgumentFault) :
    (argumentDiagnostic source origin fault).position = some origin.position := by
  cases fault <;> rfl

namespace RangeDomain

open RangeArg

variable {args : List RangeArg} {source : String}

theorem axisOfLeaf_eq_ok_iff {leaf : Leaf} {a : AxisRange} :
    axisOfLeaf source leaf = .ok a ↔ leaf.tag.1.WellFormed ∧ leaf.tag.1.Denotes a := by
  rw [axisOfLeaf, mapError_eq_ok_iff, LeafArg.axis_eq_ok_iff, Leaf.tag]

theorem mapM_axisOfLeaf_eq_ok_iff {axes : List AxisRange} :
    (leaves args).mapM (axisOfLeaf source) = .ok axes ↔
      (∀ leaf ∈ flattenAll args, leaf.WellFormed) ∧
        List.Forall₂ LeafArg.Denotes (flattenAll args) axes := by
  rw [mapM_eq_ok_iff, ← List.forall₂_and_left, ← map_fst_tagged, ← map_tag_leaves,
    List.forall₂_map_left_iff, List.forall₂_map_left_iff]
  simp only [axisOfLeaf_eq_ok_iff]

/-- The error names the first malformed leaf. -/
def Blames (args : List RangeArg) (error : DomainError) : Prop :=
  ∃ before leaf position after, tagged args = before ++ (leaf, position) :: after ∧
    (∀ earlier ∈ before, earlier.1.WellFormed) ∧ ¬leaf.WellFormed ∧
    error.diagnostic.code = some leaf.faultCode ∧ error.diagnostic.position = some position

theorem tagged_eq_append {before after : List Leaf} {leaf : Leaf}
    (h : leaves args = before ++ leaf :: after) :
    tagged args = before.map Leaf.tag ++ leaf.tag :: after.map Leaf.tag := by
  rw [← map_tag_leaves, h, List.map_append, List.map_cons]

theorem exists_first_fault {error : DomainError}
    (h : (leaves args).mapM (axisOfLeaf source) = .error error) :
    ∃ before leaf after fault, leaves args = before ++ leaf :: after ∧
      (∀ earlier ∈ before.map Leaf.tag, earlier.1.WellFormed) ∧ ¬leaf.arg.WellFormed ∧
      leaf.arg.axis = .error fault ∧ error = .argument source leaf.origin fault := by
  obtain ⟨before, leaf, after, hleaves, hbefore, hleaf⟩ := exists_first_of_mapM_eq_error h
  obtain ⟨fault, hfault, rfl⟩ := mapError_eq_error_iff.mp hleaf
  refine ⟨before, leaf, after, fault, hleaves, ?_, ?_, hfault, rfl⟩
  · rw [List.forall_mem_map]
    intro earlier hearlier
    obtain ⟨a, ha⟩ := hbefore earlier hearlier
    exact (axisOfLeaf_eq_ok_iff.mp ha).1
  · intro hwell
    obtain ⟨a, ha⟩ := LeafArg.exists_axis hwell
    rw [hfault] at ha
    cases ha

theorem blames_of_mapM_eq_error {error : DomainError}
    (h : (leaves args).mapM (axisOfLeaf source) = .error error) : Blames args error := by
  obtain ⟨before, leaf, after, fault, hleaves, hbefore, hleaf, hfault, rfl⟩ := exists_first_fault h
  exact ⟨_, _, _, _, tagged_eq_append hleaves, hbefore, hleaf,
    LeafArg.code_of_axis_eq_error hfault source leaf.origin,
    DomainError.position_argumentDiagnostic source leaf.origin fault⟩

theorem first_unique {α : Type} {P : α → Prop} {before before' after after' : List α} {a a' : α}
    (h : before ++ a :: after = before' ++ a' :: after') (hbefore : ∀ x ∈ before, P x)
    (hbefore' : ∀ x ∈ before', P x) (ha : ¬P a) (ha' : ¬P a') : a = a' := by
  induction before generalizing before' with
  | nil =>
    cases before' with
    | nil => exact (List.cons.inj h).1
    | cons x before' =>
      obtain ⟨rfl, -⟩ := List.cons.inj h
      exact absurd (hbefore' a (List.mem_cons_self ..)) ha
  | cons x before ih =>
    obtain ⟨hx, hbefore⟩ := List.forall_mem_cons.mp hbefore
    cases before' with
    | nil =>
      obtain ⟨rfl, -⟩ := List.cons.inj h
      exact absurd hx ha'
    | cons x' before' =>
      exact ih (List.cons.inj h).2 hbefore (List.forall_mem_cons.mp hbefore').2

theorem ofArguments_eq_ok {d : RangeDomain} (h : ofArguments args = .ok d) :
    (∀ leaf ∈ flattenAll args, leaf.WellFormed) ∧
      (0 < (flattenAll args).length ∧ (flattenAll args).length ≤ maxRank) ∧
      List.Forall₂ LeafArg.Denotes (flattenAll args) d.axes := by
  obtain ⟨haxes, hrank, -⟩ := accepted_of_ofArguments h
  obtain ⟨hleaves, hdenotes⟩ := mapM_axisOfLeaf_eq_ok_iff.mp haxes
  exact ⟨hleaves, hdenotes.length_eq ▸ hrank, hdenotes⟩

theorem ofArguments_eq_error {error : DomainError} (h : ofArguments args = .error error) :
    Blames args error ∨ (∀ leaf ∈ flattenAll args, leaf.WellFormed) ∧
      ¬(0 < (flattenAll args).length ∧ (flattenAll args).length ≤ maxRank) ∧
      error.diagnostic.code = some .shapeError := by
  obtain haxes | ⟨axes, haxes, hcount⟩ := refused_of_ofArguments h
  · exact .inl (blames_of_mapM_eq_error haxes)
  · obtain ⟨hleaves, hdenotes⟩ := mapM_axisOfLeaf_eq_ok_iff.mp haxes
    have hlength := hdenotes.length_eq
    refine .inr ⟨hleaves, ?_⟩
    obtain ⟨hnone, rfl⟩ | ⟨hmany, rfl⟩ := hcount
    · exact ⟨by omega, rfl⟩
    · exact ⟨by omega, rfl⟩

theorem Blames.exists_malformed {error : DomainError} (h : Blames args error) :
    ∃ leaf ∈ flattenAll args, ¬leaf.WellFormed := by
  obtain ⟨before, leaf, position, after, htagged, -, hleaf, -⟩ := h
  refine ⟨leaf, ?_, hleaf⟩
  rw [← map_fst_tagged, htagged]
  simp

/-- The kind of the blame depends on the leaves, and not on how they are grouped. -/
theorem Blames.code_eq {other : List RangeArg} {error error' : DomainError}
    (h : Blames args error) (h' : Blames other error')
    (hsame : flattenAll other = flattenAll args) :
    error'.diagnostic.code = error.diagnostic.code := by
  obtain ⟨before, leaf, position, after, htagged, hbefore, hleaf, hcode, -⟩ := h
  obtain ⟨before', leaf', position', after', htagged', hbefore', hleaf', hcode', -⟩ := h'
  rw [← map_fst_tagged, ← map_fst_tagged, htagged, htagged', List.map_append, List.map_append,
    List.map_cons, List.map_cons] at hsame
  have hfirst : leaf' = leaf := first_unique hsame (List.forall_mem_map.mpr hbefore')
    (List.forall_mem_map.mpr hbefore) hleaf' hleaf
  rw [hcode, hcode', hfirst]

theorem exists_ofArguments_iff :
    (∃ d, ofArguments args = .ok d) ↔ (∀ leaf ∈ flattenAll args, leaf.WellFormed) ∧
      0 < (flattenAll args).length ∧ (flattenAll args).length ≤ maxRank := by
  constructor
  · rintro ⟨d, hd⟩
    obtain ⟨hleaves, hcount, -⟩ := ofArguments_eq_ok hd
    exact ⟨hleaves, hcount⟩
  · rintro ⟨hleaves, hcount⟩
    cases h : ofArguments args with
    | ok d => exact ⟨d, rfl⟩
    | error error =>
      obtain hblames | ⟨-, hnot, -⟩ := ofArguments_eq_error h
      · obtain ⟨leaf, hmem, hleaf⟩ := hblames.exists_malformed
        exact absurd (hleaves leaf hmem) hleaf
      · exact absurd hcount hnot

section Regrouping

variable {other : List RangeArg} (hsame : flattenAll other = flattenAll args)
include hsame

theorem axes_of_regrouped {d : RangeDomain} (h : ofArguments args = .ok d) :
    ∃ d', ofArguments other = .ok d' ∧ d'.axes = d.axes := by
  obtain ⟨hleaves, hcount, hdenotes⟩ := ofArguments_eq_ok h
  obtain ⟨d', hd'⟩ : ∃ d', ofArguments other = .ok d' := by
    rw [exists_ofArguments_iff, hsame]
    exact ⟨hleaves, hcount⟩
  obtain ⟨-, -, hdenotes'⟩ := ofArguments_eq_ok hd'
  rw [hsame] at hdenotes'
  exact ⟨d', hd', LeafArg.denotes_unique.forall₂ hdenotes' hdenotes⟩

theorem code_of_regrouped {error : DomainError} (h : ofArguments args = .error error) :
    ∃ error', ofArguments other = .error error' ∧
      error'.diagnostic.code = error.diagnostic.code := by
  cases h' : ofArguments other with
  | ok d =>
    obtain ⟨d', hd', -⟩ := axes_of_regrouped hsame.symm h'
    rw [h] at hd'
    cases hd'
  | error error' =>
    refine ⟨error', rfl, ?_⟩
    obtain hblames | ⟨hleaves, -, hcode⟩ := ofArguments_eq_error h
    · obtain hblames' | ⟨hleaves', -, -⟩ := ofArguments_eq_error h'
      · exact hblames.code_eq hblames' hsame
      · obtain ⟨leaf, hmem, hleaf⟩ := hblames.exists_malformed
        exact absurd (hleaves' leaf (hsame ▸ hmem)) hleaf
    · obtain hblames' | ⟨-, -, hcode'⟩ := ofArguments_eq_error h'
      · obtain ⟨leaf, hmem, hleaf⟩ := hblames'.exists_malformed
        exact absurd (hleaves leaf (hsame ▸ hmem)) hleaf
      · rw [hcode, hcode']

end Regrouping

/-- A call is accepted exactly if it follows the grammar, and then the leaves are its axes in order.
Otherwise the first malformed leaf is blamed at its argument, and the number of axes only where no
leaf is malformed. Regrouping the leaves changes neither the axes nor the kind of the error. -/
theorem ofArguments_accepts_grammar (args : List RangeArg) :
    ((∃ d, ofArguments args = .ok d) ↔ (∀ leaf ∈ flattenAll args, leaf.WellFormed) ∧
      0 < (flattenAll args).length ∧ (flattenAll args).length ≤ maxRank) ∧
    (∀ d, ofArguments args = .ok d → List.Forall₂ LeafArg.Denotes (flattenAll args) d.axes) ∧
    (∀ error, ofArguments args = .error error →
      ((∃ leaf ∈ flattenAll args, ¬leaf.WellFormed) → Blames args error) ∧
      ((∀ leaf ∈ flattenAll args, leaf.WellFormed) →
        error.diagnostic.code = some .shapeError)) ∧
    ∀ other, flattenAll other = flattenAll args →
      (∀ d, ofArguments args = .ok d → ∃ d', ofArguments other = .ok d' ∧ d'.axes = d.axes) ∧
      ∀ error, ofArguments args = .error error →
        ∃ error', ofArguments other = .error error' ∧
          error'.diagnostic.code = error.diagnostic.code := by
  refine ⟨exists_ofArguments_iff, fun d hd => (ofArguments_eq_ok hd).2.2, fun error herror => ?_,
    fun other hsame => ⟨fun d => axes_of_regrouped hsame, fun error => code_of_regrouped hsame⟩⟩
  obtain hblames | ⟨hleaves, -, hcode⟩ := ofArguments_eq_error herror
  · refine ⟨fun _ => hblames, fun hleaves => ?_⟩
    obtain ⟨leaf, hmem, hleaf⟩ := hblames.exists_malformed
    exact absurd (hleaves leaf hmem) hleaf
  · exact ⟨fun ⟨leaf, hmem, hleaf⟩ => absurd (hleaves leaf hmem) hleaf, fun _ => hcode⟩

theorem ofArguments_accepts_grammar_nested :
    let two : RangeArg := .scalar (.ofInt64 2)
    let pair : RangeArg := .seq [.ofInt64 1, .ofInt64 5]
    let triple : RangeArg := .seq [.ofInt64 1, .ofInt64 2, .ofInt64 3]
    (∃ d d', ofArguments [two, pair, two] = .ok d ∧
      ofArguments [.splat [two, .splat [pair]], .splat [], two] = .ok d' ∧ d'.axes = d.axes) ∧
    ∃ error, ofArguments [.splat (List.replicate 9 two), .splat [two, triple]] = .error error ∧
      Blames [.splat (List.replicate 9 two), .splat [two, triple]] error := by
  intro two pair triple
  obtain ⟨d, hd⟩ : ∃ d, ofArguments [two, pair, two] = .ok d := ⟨_, rfl⟩
  obtain ⟨error, herror⟩ : ∃ error,
      ofArguments [.splat (List.replicate 9 two), .splat [two, triple]] = .error error := ⟨_, rfl⟩
  obtain ⟨-, -, -, hregroup⟩ := ofArguments_accepts_grammar [two, pair, two]
  obtain ⟨d', hd', haxes⟩ := (hregroup [.splat [two, .splat [pair]], .splat [], two] rfl).1 d hd
  refine ⟨⟨d, d', hd, hd', haxes⟩, error, herror, ?_⟩
  have hmalformed : ¬LeafArg.WellFormed (.seq [.ofInt64 1, .ofInt64 2, .ofInt64 3]) :=
    fun hleaf => absurd hleaf.1 (by decide)
  refine ((ofArguments_accepts_grammar _).2.2.1 error herror).1 ⟨_, ?_, hmalformed⟩
  simp [flattenAll, flatten, triple]

end RangeDomain

end LoopNest
