import LoopNest.Proofs.Bound.Parts
import LoopNest.Proofs.Storage.Elements

/-! What evaluation has to check. The exact value of a bound is its value where nothing overflows;
the checks are listed in the order in which they are made, and each is stated by exact values. -/

namespace LoopNest

/-- The places at which evaluation can fail: on the way into a bound and on the way out. -/
inductive Visit where
  | enter (bound : Bound)
  | leave (bound : Bound)

def Visit.bound : Visit → Bound
  | .enter b | .leave b => b

namespace Bound

def around (b : Bound) (inner : List Visit) : List Visit := .enter b :: (inner ++ [.leave b])

mutual

def visits : Bound → List Visit
  | .int literal => around (.int literal) []
  | .float value => around (.float value) []
  | .param name kind => around (.param name kind) []
  | .load field name kind index => around (.load field name kind index) (allVisits index)
  | .arith op left right => around (.arith op left right) (left.visits ++ right.visits)

def allVisits : List Bound → List Visit
  | [] => []
  | b :: bs => b.visits ++ allVisits bs

end

theorem mem_allVisits {bs : List Bound} {visit : Visit} :
    visit ∈ allVisits bs ↔ ∃ b ∈ bs, visit ∈ b.visits := by
  induction bs with
  | nil => simp [allVisits]
  | cons b bs ih => simp [allVisits, ih]

theorem bound_eq_or_mem_of_mem_around {b : Bound} {inner : List Visit} {visit : Visit}
    (h : visit ∈ around b inner) : visit.bound = b ∨ visit ∈ inner := by
  simp only [around, List.mem_cons, List.mem_append, List.not_mem_nil, or_false] at h
  rcases h with rfl | h | rfl
  · exact .inl rfl
  · exact .inr h
  · exact .inl rfl

theorem bound_mem_parts_of_mem_around_nil {b : Bound} {visit : Visit} (h : visit ∈ around b []) :
    visit.bound ∈ b.parts := by
  obtain hself | hinner := bound_eq_or_mem_of_mem_around h
  · exact hself ▸ mem_parts_self _
  · cases hinner

theorem bound_mem_parts {b : Bound} {visit : Visit} (h : visit ∈ b.visits) :
    visit.bound ∈ b.parts := by
  induction b with
  | int literal => exact bound_mem_parts_of_mem_around_nil (visits.eq_1 literal ▸ h)
  | float value => exact bound_mem_parts_of_mem_around_nil (visits.eq_2 value ▸ h)
  | param name kind => exact bound_mem_parts_of_mem_around_nil (visits.eq_3 name kind ▸ h)
  | load field name kind index ih =>
    rw [visits] at h
    obtain hself | hinner := bound_eq_or_mem_of_mem_around h
    · exact hself ▸ mem_parts_self _
    · obtain ⟨i, hi, hvisit⟩ := mem_allVisits.mp hinner
      exact mem_parts_load.mpr (.inl ⟨i, hi, ih i hi hvisit⟩)
  | arith op left right ihl ihr =>
    rw [visits] at h
    obtain hself | hinner := bound_eq_or_mem_of_mem_around h
    · exact hself ▸ mem_parts_self _
    · rcases List.mem_append.mp hinner with hl | hr
      · exact mem_parts_arith.mpr (.inl (ihl hl))
      · exact mem_parts_arith.mpr (.inr (.inl (ihr hr)))

end Bound

namespace Evaluator

mutual

/-- The value in the integers. Floats have none, nor has a parameter without an integer argument or
an element that is not there. -/
def exactValue? (e : Evaluator) : Bound → Option Int
  | .int literal => some literal.value
  | .float _ => none
  | .param name _ =>
    match e.args.get? name with
    | some (.int literal) => some literal.value
    | _ => none
  | .load field _ _ index => do (← e.storage.primary? field).element? (← e.exactValues? index)
  | .arith op left right => do return op.apply (← e.exactValue? left) (← e.exactValue? right)

def exactValues? (e : Evaluator) : List Bound → Option (List Int)
  | [] => some []
  | b :: bs => do return (← e.exactValue? b) :: (← e.exactValues? bs)

end

/-- A load needs an integer field before its indices are looked at. -/
def enterError? (e : Evaluator) : Bound → Option LaunchError
  | .load field name kind index =>
    match e.storage.primary? field with
    | none => some (.unknownField name)
    | some buffer =>
      if buffer.kind.isIntegral then none
      else some (.nonIntegral (Bound.text (.load field name kind index)))
  | _ => none

/-- Why a bound has no exact value although its operands and indices have. -/
def absence? (e : Evaluator) : Bound → Option LaunchError
  | .float value => some (.nonIntegral (Bound.text (.float value)))
  | .param name _ =>
    match e.args.get? name with
    | none => some (.missingParam name)
    | some (.float _) => some (.nonIntegral name)
    | some (.int _) => none
  | .load field name _ index => do
    let cause ← (← e.storage.primary? field).indexFault? (← e.exactValues? index)
    return .boundLoad name cause
  | .int _ | .arith .. => none

def overflow? (e : Evaluator) (b : Bound) : Option LaunchError := do
  if InWord (← e.exactValue? b) then none else some (.boundOverflow b.text)

def visitError? (e : Evaluator) : Visit → Option LaunchError
  | .enter b => e.enterError? b
  | .leave b => (e.absence? b).or (e.overflow? b)

def firstError? (e : Evaluator) (b : Bound) : Option LaunchError := b.visits.findSome? e.visitError?

variable {e : Evaluator}

theorem findSome?_around (b : Bound) (inner : List Visit) :
    (b.around inner).findSome? e.visitError? =
      (e.enterError? b).or ((inner.findSome? e.visitError?).or
        ((e.absence? b).or (e.overflow? b))) := by
  simp only [Bound.around, List.findSome?_cons, List.findSome?_append, visitError?,
    List.findSome?_nil]
  cases e.enterError? b with
  | some error => rfl
  | none =>
    cases inner.findSome? e.visitError? with
    | some error => rfl
    | none => cases (e.absence? b).or (e.overflow? b) <;> rfl

theorem overflow?_of_value {b : Bound} {n : Int} (h : e.exactValue? b = some n) :
    e.overflow? b = if InWord n then none else some (.boundOverflow b.text) := by
  rw [overflow?, h]
  rfl

theorem overflow?_eq_some {b : Bound} {error : LaunchError} (h : e.overflow? b = some error) :
    ∃ n, e.exactValue? b = some n ∧ ¬InWord n ∧ error = .boundOverflow b.text := by
  simp only [overflow?, Option.bind_eq_bind, Option.bind_eq_some_iff] at h
  obtain ⟨n, hn, h⟩ := h
  split at h
  · cases h
  · cases h
    exact ⟨n, hn, ‹_›, rfl⟩

theorem checks_of_exactValue? {b : Bound} {n : Int} (h : e.exactValue? b = some n) :
    e.enterError? b = none ∧ e.absence? b = none := by
  cases b with
  | int literal => exact ⟨rfl, rfl⟩
  | float value => simp [exactValue?] at h
  | param name kind =>
    refine ⟨rfl, ?_⟩
    rw [exactValue?] at h
    rw [absence?]
    split at h
    · rw [‹e.args.get? name = _›]
    · cases h
  | load field name kind index =>
    simp only [exactValue?, Option.bind_eq_bind, Option.bind_eq_some_iff] at h
    obtain ⟨buffer, hbuffer, is, his, helement⟩ := h
    obtain ⟨k, -, hk, -, -, hfault⟩ := Buffer.of_element?_eq_some helement
    simp [enterError?, absence?, hbuffer, his, hk, hfault, ScalarKind.isIntegral]
  | arith op left right => exact ⟨rfl, rfl⟩

theorem visitError?_eq_none {visit : Visit} {n : Int} (h : e.exactValue? visit.bound = some n)
    (hn : InWord n) : e.visitError? visit = none := by
  obtain ⟨henter, habsence⟩ := checks_of_exactValue? h
  cases visit with
  | enter b => exact henter
  | leave b =>
    rw [Visit.bound] at h habsence
    rw [visitError?, habsence, overflow?_of_value h, if_pos hn]
    rfl

theorem firstError?_eq_none {b : Bound}
    (h : ∀ part ∈ b.parts, ∃ n, e.exactValue? part = some n ∧ InWord n) :
    e.firstError? b = none := by
  rw [firstError?, List.findSome?_eq_none_iff]
  intro visit hvisit
  obtain ⟨n, hn, hword⟩ := h _ (Bound.bound_mem_parts hvisit)
  exact visitError?_eq_none hn hword

end Evaluator

end LoopNest
