import LoopNest.Bound.Basic

/-! Sub-expressions of bounds. The operands of arithmetic and the indices of a load are parts of a
bound, and so are theirs, and the bound itself; they are listed in the order in which they are
evaluated. -/

namespace LoopNest.Bound

/-- Induction with a hypothesis for every index of a load. -/
@[elab_as_elim, induction_eliminator]
theorem inductionOn {motive : Bound → Prop} (b : Bound)
    (int : ∀ literal, motive (.int literal)) (float : ∀ value, motive (.float value))
    (param : ∀ name kind, motive (.param name kind))
    (load : ∀ field name kind index, (∀ i ∈ index, motive i) →
      motive (.load field name kind index))
    (arith : ∀ op left right, motive left → motive right → motive (.arith op left right)) :
    motive b :=
  Bound.rec (motive_1 := motive) (motive_2 := fun index => ∀ i ∈ index, motive i) int float param
    load arith (by simp) (fun _ _ hhead htail => List.forall_mem_cons.mpr ⟨hhead, htail⟩) b

mutual

def parts : Bound → List Bound
  | .int literal => [.int literal]
  | .float value => [.float value]
  | .param name kind => [.param name kind]
  | .load field name kind index => allParts index ++ [.load field name kind index]
  | .arith op left right => left.parts ++ right.parts ++ [.arith op left right]

def allParts : List Bound → List Bound
  | [] => []
  | b :: bs => b.parts ++ allParts bs

end

theorem mem_allParts {bs : List Bound} {part : Bound} :
    part ∈ allParts bs ↔ ∃ b ∈ bs, part ∈ b.parts := by
  induction bs with
  | nil => simp [allParts]
  | cons b bs ih => simp [allParts, ih]

theorem mem_parts_self (b : Bound) : b ∈ b.parts := by
  cases b <;> simp [parts]

theorem mem_parts_load {field : FieldId} {name : String} {kind : ScalarKind} {index : List Bound}
    {part : Bound} :
    part ∈ (load field name kind index).parts ↔
      (∃ i ∈ index, part ∈ i.parts) ∨ part = .load field name kind index := by
  rw [parts, List.mem_append, mem_allParts, List.mem_singleton]

theorem mem_parts_arith {op : ArithOp} {left right part : Bound} :
    part ∈ (arith op left right).parts ↔
      part ∈ left.parts ∨ part ∈ right.parts ∨ part = .arith op left right := by
  rw [parts, List.mem_append, List.mem_append, List.mem_singleton, or_assoc]

theorem forall_mem_parts_load {field : FieldId} {name : String} {kind : ScalarKind}
    {index : List Bound} {P : Bound → Prop} :
    (∀ part ∈ (load field name kind index).parts, P part) ↔
      (∀ i ∈ index, ∀ part ∈ i.parts, P part) ∧ P (.load field name kind index) := by
  simp only [mem_parts_load, or_imp, forall_and, forall_eq]
  refine and_congr_left fun _ => ⟨fun h i hi part hpart => h part ⟨i, hi, hpart⟩, ?_⟩
  rintro h part ⟨i, hi, hpart⟩
  exact h i hi part hpart

theorem forall_mem_parts_arith {op : ArithOp} {left right : Bound} {P : Bound → Prop} :
    (∀ part ∈ (arith op left right).parts, P part) ↔
      (∀ part ∈ left.parts, P part) ∧ (∀ part ∈ right.parts, P part) ∧ P (.arith op left right) := by
  simp only [mem_parts_arith, or_imp, forall_and, forall_eq]

end LoopNest.Bound
