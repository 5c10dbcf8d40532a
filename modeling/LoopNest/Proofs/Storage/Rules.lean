import LoopNest.Storage.Layout
import Mathlib.Data.List.Induction
import Mathlib.Data.List.Nodup

/-! The rules of a layout, said of the calls that describe it and not of the builder that they
drive. A call sees the fields declared and the nodes made by the calls before it. What breaks a
rule is listed in call order; a list of calls without faults that places every field is a layout. -/

namespace LoopNest

namespace LayoutStep

def decl? : LayoutStep → Option FieldDecl
  | .declare decl => some decl
  | .block .. | .place .. | .lazyGrad => none

def node? : LayoutStep → Option (NodeId × NodeKind)
  | .block parent kind extents => some (parent, .block kind extents)
  | .place parent fields => some (parent, .place fields)
  | .declare _ | .lazyGrad => none

def placed : LayoutStep → List FieldId
  | .place _ fields => fields
  | .declare _ | .block .. | .lazyGrad => []

end LayoutStep

namespace Layout

def declared (steps : List LayoutStep) : List FieldDecl := steps.filterMap LayoutStep.decl?

def created (steps : List LayoutStep) : List (NodeId × NodeKind) := steps.filterMap LayoutStep.node?

def named (steps : List LayoutStep) : List FieldId := steps.flatMap LayoutStep.placed

def kinds (steps : List LayoutStep) : List NodeKind := .root :: (created steps).map Prod.snd

/-- Every parent is the root or a node made by an earlier call. -/
def HandlesKnown (steps : List LayoutStep) : Prop :=
  ∀ k : Fin steps.length, ∀ node ∈ steps[k].node?, node.1.index < (kinds (steps.take k)).length

instance (steps : List LayoutStep) : Decidable (HandlesKnown steps) :=
  inferInstanceAs (Decidable (∀ _, _))

def IsPlaceNode (steps : List LayoutStep) (node : NodeId) : Prop :=
  (kinds steps)[node.index]?.any NodeKind.isPlace

instance (steps : List LayoutStep) (node : NodeId) : Decidable (IsPlaceNode steps node) :=
  inferInstanceAs (Decidable (_ = true))

/-- The extents of the nodes from the root down to a node, one after the other. -/
inductive PathExtents (steps : List LayoutStep) : NodeId → List UInt64 → Prop where
  | root : PathExtents steps ⟨0⟩ []
  | child {k : Nat} {parent : NodeId} {kind : NodeKind} {extents : List UInt64}
    (h : (created steps)[k]? = some (parent, kind)) (above : PathExtents steps parent extents) :
    PathExtents steps ⟨k + 1⟩ (extents ++ kind.extents)

/-- The declarations as they stand after all calls: a later `lazyGrad` asks for an adjoint. -/
def graded : List LayoutStep → List FieldDecl
  | [] => []
  | .declare decl :: steps =>
    { decl with needsGrad := decl.needsGrad || steps.contains .lazyGrad } :: graded steps
  | .block .. :: steps | .place .. :: steps | .lazyGrad :: steps => graded steps

/-! What a call does wrong, given the calls before it. -/

def placeFault? (names : List String) (earlier : List FieldId) (field : FieldId) :
    Option LayoutError :=
  match names[field.index]? with
  | none => some (.unknownField field)
  | some name => if field ∈ earlier then some (.placedTwice name) else none

def placeFaults (names : List String) (earlier : List FieldId) : List FieldId → List LayoutError
  | [] => []
  | field :: fields =>
    (placeFault? names earlier field).toList ++ placeFaults names (earlier ++ [field]) fields

/-- A node under a place node comes first, then the fields that are placed, in their order. -/
def stepFaults (before : List LayoutStep) (step : LayoutStep) : List LayoutError :=
  (if ∃ node ∈ step.node?, IsPlaceNode before node.1 then [.childOfPlace] else []) ++
    placeFaults ((declared before).map FieldDecl.name) (named before) step.placed

def faultsAfter (before : List LayoutStep) : List LayoutStep → List LayoutError
  | [] => []
  | step :: steps => stepFaults before step ++ faultsAfter (before ++ [step]) steps

def faults (steps : List LayoutStep) : List LayoutError := faultsAfter [] steps

/-- The three rules: nothing hangs below a place node, a field is placed after its declaration
only, and every declared field is placed exactly once. -/
structure Rules (steps : List LayoutStep) : Prop where
  parent : ∀ before step after, steps = before ++ step :: after →
    ∀ node ∈ step.node?, ¬IsPlaceNode before node.1
  declared : ∀ before step after, steps = before ++ step :: after →
    ∀ field ∈ step.placed, field.index < (declared before).length
  once : ∀ k < (Layout.declared steps).length, (named steps).count ⟨k⟩ = 1

section Append

variable (steps : List LayoutStep) (step : LayoutStep)

@[simp] theorem declared_append (more : List LayoutStep) :
    declared (steps ++ more) = declared steps ++ declared more := List.filterMap_append

@[simp] theorem created_append (more : List LayoutStep) :
    created (steps ++ more) = created steps ++ created more := List.filterMap_append

@[simp] theorem named_append (more : List LayoutStep) :
    named (steps ++ more) = named steps ++ named more := List.flatMap_append

theorem declared_cons : declared (step :: steps) = step.decl?.toList ++ declared steps := by
  cases step <;> rfl

@[simp] theorem created_singleton : created [step] = step.node?.toList := by
  cases step <;> rfl

@[simp] theorem named_singleton : named [step] = step.placed := by
  simp [named]

theorem kinds_append (more : List LayoutStep) :
    kinds (steps ++ more) = kinds steps ++ (created more).map Prod.snd := by
  simp [kinds]

theorem kinds_snoc : kinds (steps ++ [step]) = kinds steps ++ (step.node?.map Prod.snd).toList := by
  rw [kinds_append, created_singleton, Option.toList_map]

theorem length_kinds : (kinds steps).length = (created steps).length + 1 := by
  simp [kinds]

theorem stepFaults_of_bare {before : List LayoutStep} {step : LayoutStep} (hnode : step.node? = none)
    (hplaced : step.placed = []) : stepFaults before step = [] := by
  simp [stepFaults, hnode, hplaced, placeFaults]

theorem faultsAfter_append (before more : List LayoutStep) :
    faultsAfter before (steps ++ more) =
      faultsAfter before steps ++ faultsAfter (before ++ steps) more := by
  induction steps generalizing before with
  | nil => simp [faultsAfter]
  | cons s steps ih => simp [faultsAfter, ih]

theorem faults_snoc : faults (steps ++ [step]) = faults steps ++ stepFaults steps step := by
  simp [faults, faultsAfter_append, faultsAfter]

theorem forall_split_snoc {P : List LayoutStep → LayoutStep → Prop} :
    (∀ before s after, steps ++ [step] = before ++ s :: after → P before s) ↔
      (∀ before s after, steps = before ++ s :: after → P before s) ∧ P steps step := by
  constructor
  · intro h
    refine ⟨fun before s after hsplit => h before s (after ++ [step]) ?_, h steps step [] rfl⟩
    rw [hsplit, List.append_assoc, List.cons_append]
  · rintro ⟨hall, hlast⟩ before s after hsplit
    rcases List.eq_nil_or_concat after with rfl | ⟨init, last, rfl⟩
    · obtain ⟨rfl, hs⟩ := List.append_inj' hsplit rfl
      obtain rfl := List.singleton_inj.mp hs
      exact hlast
    · rw [List.concat_eq_append, ← List.cons_append, ← List.append_assoc] at hsplit
      exact hall before s init (List.append_inj' hsplit rfl).1

end Append

section Calls

variable {steps : List LayoutStep} {step : LayoutStep}

theorem flatMap_fields_kinds (steps : List LayoutStep) :
    (kinds steps).flatMap NodeKind.fields = named steps := by
  induction steps with
  | nil => rfl
  | cons s steps ih =>
    cases s with
    | declare decl => exact ih
    | block parent kind extents => exact ih
    | place parent fields => exact congrArg (fields ++ ·) ih
    | lazyGrad => exact ih

theorem PathExtents.append {node : NodeId} {extents : List UInt64}
    (h : PathExtents steps node extents) (more : List LayoutStep) :
    PathExtents (steps ++ more) node extents := by
  induction h with
  | root => exact .root
  | child h _ ih =>
    refine .child ?_ ih
    rw [created_append, List.getElem?_append_left (List.getElem?_eq_some_iff.mp h).1, h]

theorem getElem?_kinds_append {k : Nat} {kind : NodeKind} (h : (kinds steps)[k]? = some kind)
    (more : List LayoutStep) : (kinds (steps ++ more))[k]? = some kind := by
  rw [kinds_append, List.getElem?_append_left (List.getElem?_eq_some_iff.mp h).1, h]

theorem HandlesKnown.of_snoc (h : HandlesKnown (steps ++ [step])) :
    HandlesKnown steps ∧ ∀ node ∈ step.node?, node.1.index < (kinds steps).length := by
  constructor
  · intro k node hnode
    have hlt : k.val < (steps ++ [step]).length := by
      rw [List.length_append]
      exact Nat.lt_add_right _ k.isLt
    have hk := h ⟨k.val, hlt⟩ node
    simp only [Fin.getElem_fin, List.getElem_append_left k.isLt,
      List.take_append_of_le_length (Nat.le_of_lt k.isLt)] at hk
    exact hk hnode
  · simpa [HandlesKnown] using h ⟨steps.length, by simp⟩

theorem graded_append_of_ne (h : step ≠ .lazyGrad) :
    graded (steps ++ [step]) = graded steps ++ step.decl?.toList := by
  induction steps with
  | nil => cases step <;> simp_all [graded, LayoutStep.decl?]
  | cons s steps ih => cases s <;> simp [graded, ih, h.symm]

theorem graded_append_lazyGrad :
    graded (steps ++ [.lazyGrad]) =
      (graded steps).map fun decl => { decl with needsGrad := true } := by
  induction steps with
  | nil => rfl
  | cons s steps ih => cases s <;> simp [graded, ih]

theorem map_graded {α : Type} {f : FieldDecl → α}
    (hf : ∀ decl grad, f { decl with needsGrad := grad } = f decl) (steps : List LayoutStep) :
    (graded steps).map f = (declared steps).map f := by
  induction steps with
  | nil => rfl
  | cons s steps ih => cases s <;> simp [graded, declared_cons, LayoutStep.decl?, ih, hf]

theorem map_name_graded (steps : List LayoutStep) :
    (graded steps).map FieldDecl.name = (declared steps).map FieldDecl.name :=
  map_graded (fun _ _ => rfl) steps

theorem getElem?_graded (before after : List LayoutStep) (decl : FieldDecl) :
    (graded (before ++ .declare decl :: after))[(declared before).length]? =
      some { decl with needsGrad := decl.needsGrad || after.contains .lazyGrad } := by
  induction before with
  | nil => rfl
  | cons s before ih => cases s <;> simpa [graded, declared_cons, LayoutStep.decl?] using ih

end Calls

section Rules

variable {names : List String} {earlier fields : List FieldId} {steps before : List LayoutStep}
  {step : LayoutStep}

theorem placeFault?_eq_none_iff {field : FieldId} :
    placeFault? names earlier field = none ↔ field.index < names.length ∧ field ∉ earlier := by
  rw [placeFault?]
  split
  · rename_i h
    rw [List.getElem?_eq_none_iff] at h
    simp [Nat.not_lt.mpr h]
  · rename_i name h
    obtain ⟨hlt, -⟩ := List.getElem?_eq_some_iff.mp h
    simp [hlt]

theorem placeFaults_eq_nil_iff :
    placeFaults names earlier fields = [] ↔
      (∀ field ∈ fields, field.index < names.length) ∧ fields.Nodup ∧ earlier.Disjoint fields := by
  induction fields generalizing earlier with
  | nil => simp [placeFaults]
  | cons field fields ih =>
    simp only [placeFaults, List.append_eq_nil_iff, Option.toList_eq_nil_iff,
      placeFault?_eq_none_iff, ih, List.nodup_cons, List.forall_mem_cons, List.disjoint_append_left,
      List.singleton_disjoint, List.disjoint_cons_right]
    tauto

theorem stepFaults_eq_nil_iff :
    stepFaults before step = [] ↔
      (∀ node ∈ step.node?, ¬IsPlaceNode before node.1) ∧
        (∀ field ∈ step.placed, field.index < (declared before).length) ∧
          step.placed.Nodup ∧ (named before).Disjoint step.placed := by
  simp only [stepFaults, List.append_eq_nil_iff, placeFaults_eq_nil_iff, List.length_map]
  simp

theorem faults_eq_nil_iff :
    faults steps = [] ↔
      (∀ before step after, steps = before ++ step :: after →
        ∀ node ∈ step.node?, ¬IsPlaceNode before node.1) ∧
      (∀ before step after, steps = before ++ step :: after →
        ∀ field ∈ step.placed, field.index < (declared before).length) ∧
      (named steps).Nodup := by
  induction steps using List.reverseRecOn with
  | nil => simp [faults, faultsAfter, named]
  | append_singleton steps step ih =>
    rw [faults_snoc, List.append_eq_nil_iff, ih, stepFaults_eq_nil_iff,
      forall_split_snoc (P := fun before s => ∀ node ∈ s.node?, ¬IsPlaceNode before node.1),
      forall_split_snoc
        (P := fun before s => ∀ field ∈ s.placed, field.index < (declared before).length),
      named_append, named_singleton, List.nodup_append']
    tauto

theorem Rules.index_lt {field : FieldId} (h : Rules steps) (hfield : field ∈ named steps) :
    field.index < (Layout.declared steps).length := by
  obtain ⟨step, hstep, hplaced⟩ := List.mem_flatMap.mp hfield
  obtain ⟨before, after, rfl⟩ := List.append_of_mem hstep
  have hlt := h.declared before step after rfl field hplaced
  rw [declared_append, List.length_append]
  omega

theorem rules_iff :
    Rules steps ↔ faults steps = [] ∧ ∀ k < (declared steps).length, ⟨k⟩ ∈ named steps := by
  constructor
  · intro h
    refine ⟨faults_eq_nil_iff.mpr ⟨h.parent, h.declared, ?_⟩, fun k hk => ?_⟩
    · rw [List.nodup_iff_count_le_one]
      intro field
      by_cases hfield : field ∈ named steps
      · exact Nat.le_of_eq (h.once field.index (h.index_lt hfield))
      · rw [List.count_eq_zero_of_not_mem hfield]
        exact Nat.zero_le 1
    · exact List.count_pos_iff.mp (by rw [h.once k hk]; exact Nat.one_pos)
  · rintro ⟨hfaults, hnamed⟩
    obtain ⟨hparent, hdeclared, hnodup⟩ := faults_eq_nil_iff.mp hfaults
    exact ⟨hparent, hdeclared, fun k hk => List.count_eq_one_of_mem hnodup (hnamed k hk)⟩

end Rules

end Layout

end LoopNest
