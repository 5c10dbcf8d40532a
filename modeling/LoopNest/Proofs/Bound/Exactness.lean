import LoopNest.Proofs.Bound.Checks
import LoopNest.Proofs.Failure

/-! Evaluation against the integers. Evaluation gives the exact value of a bound if every check
passes, and otherwise the error of the first one that fails. -/

namespace LoopNest

namespace Evaluator

/-- Evaluation is what the checks say. -/
def Follows (e : Evaluator) (b : Bound) : Prop :=
  match e.eval b with
  | .ok v => e.exactValue? b = some v.toInt ∧ e.firstError? b = none
  | .error error => e.firstError? b = some error

variable {e : Evaluator}

theorem follows_of_value {b : Bound} {inner : List Visit} {n : Int}
    (hvisits : b.visits = b.around inner) (henter : e.enterError? b = none)
    (hinner : inner.findSome? e.visitError? = none) (habsence : e.absence? b = none)
    (hvalue : e.exactValue? b = some n)
    (heval : e.eval b = match narrow? n with
      | some v => .ok v
      | none => .error (.boundOverflow b.text)) : e.Follows b := by
  have hfirst : e.firstError? b = e.overflow? b := by
    rw [firstError?, hvisits, findSome?_around, henter, hinner, habsence]
    rfl
  rw [Follows, heval, hfirst, overflow?_of_value hvalue, hvalue]
  cases hn : narrow? n with
  | some v =>
    obtain rfl := narrow?_eq_some_iff.mp hn
    exact ⟨rfl, if_pos (inWord_toInt v)⟩
  | none => exact if_neg (narrow?_eq_none_iff.mp hn)

theorem follows_int (literal : IntLiteral) : e.Follows (.int literal) := by
  refine follows_of_value (by rw [Bound.visits]) rfl rfl rfl (by rw [exactValue?]) ?_
  rw [eval]
  rfl

theorem follows_float (value : Binary64) : e.Follows (.float value) := by
  rw [Follows, eval, firstError?, Bound.visits, findSome?_around]
  rfl

theorem follows_param (name : String) (kind : ScalarKind) : e.Follows (.param name kind) := by
  cases harg : e.args.get? name with
  | none =>
    rw [Follows, eval, evalParam, harg, firstError?, Bound.visits, findSome?_around]
    simp [enterError?, absence?, harg]
  | some value =>
    cases value with
    | float value =>
      rw [Follows, eval, evalParam, harg, firstError?, Bound.visits, findSome?_around]
      simp [enterError?, absence?, harg]
    | int literal =>
      refine follows_of_value (n := literal.value) (by rw [Bound.visits]) rfl rfl ?_ ?_ ?_
      · rw [absence?, harg]
      · rw [exactValue?, harg]
      · rw [eval, evalParam, harg, Bound.text]
        rfl

theorem follows_arith {op : ArithOp} {left right : Bound} (hl : e.Follows left)
    (hr : e.Follows right) : e.Follows (.arith op left right) := by
  have hfirst : e.firstError? (.arith op left right) =
      (e.firstError? left).or ((e.firstError? right).or (e.overflow? (.arith op left right))) := by
    rw [firstError?, Bound.visits, findSome?_around, List.findSome?_append, Option.or_assoc]
    rfl
  rw [Follows] at hl hr
  -- The left operand decides if it fails, then the right one, and then the result.
  cases hleft : e.eval left with
  | error error =>
    rw [hleft] at hl
    rw [Follows, eval, hleft, hfirst, hl]
    rfl
  | ok a =>
    rw [hleft] at hl
    obtain ⟨ha, hla⟩ := hl
    cases hright : e.eval right with
    | error error =>
      rw [hright] at hr
      rw [Follows, eval, hleft, hright, hfirst, hla, hr]
      rfl
    | ok b =>
      rw [hright] at hr
      obtain ⟨hb, hrb⟩ := hr
      have hinner : (left.visits ++ right.visits).findSome? e.visitError? = none := by
        rw [List.findSome?_append, Option.or_eq_none_iff]
        exact ⟨hla, hrb⟩
      refine follows_of_value (n := op.apply a.toInt b.toInt) (by rw [Bound.visits]) rfl hinner rfl
        ?_ ?_
      · rw [exactValue?, ha, hb]
        rfl
      · rw [eval, hleft, hright]
        rfl

theorem firstErrors?_cons (b : Bound) (bs : List Bound) :
    (Bound.allVisits (b :: bs)).findSome? e.visitError? =
      (e.firstError? b).or ((Bound.allVisits bs).findSome? e.visitError?) := by
  rw [Bound.allVisits, List.findSome?_append, firstError?]

theorem followsAll {bs : List Bound} (h : ∀ b ∈ bs, e.Follows b) :
    match e.evalAll bs with
    | .ok vs => e.exactValues? bs = some (vs.map Int64.toInt) ∧
        (Bound.allVisits bs).findSome? e.visitError? = none
    | .error error => (Bound.allVisits bs).findSome? e.visitError? = some error := by
  induction bs with
  | nil =>
    rw [evalAll, exactValues?]
    exact ⟨rfl, rfl⟩
  | cons b bs ih =>
    obtain ⟨hb, hbs⟩ := List.forall_mem_cons.mp h
    have hall := ih hbs
    rw [Follows] at hb
    rw [evalAll, firstErrors?_cons]
    cases hhead : e.eval b with
    | error error =>
      rw [hhead] at hb
      rw [hb]
      rfl
    | ok v =>
      rw [hhead] at hb
      obtain ⟨hv, hfirst⟩ := hb
      rw [hfirst]
      cases htail : e.evalAll bs with
      | error error =>
        rw [htail] at hall
        rw [hall]
        rfl
      | ok vs =>
        rw [htail] at hall
        obtain ⟨hvs, hrest⟩ := hall
        refine ⟨?_, by rw [hrest]; rfl⟩
        rw [exactValues?, hv, hvs]
        rfl

theorem readElement_eq {buffer : Buffer} {k : IntKind} {index : List Int64} (name text : String)
    (hk : buffer.kind = .int k) (hbuilt : buffer.Built) (hcanonical : buffer.Canonical)
    (hfault : buffer.indexFault? (index.map Int64.toInt) = none) :
    ∃ n, buffer.element? (index.map Int64.toInt) = some n ∧
      readElement buffer name text index = match narrow? n with
        | some v => .ok v
        | none => .error (.boundOverflow text) := by
  obtain ⟨bits, hmem, hload, helement⟩ := Buffer.load_of_indexFault?_eq_none hbuilt hfault
  refine ⟨k.read bits, helement k hk, ?_⟩
  -- The cell holds a value of its kind, so a negative word stands for a number that is too large.
  have hsign := IntKind.inWord_read_iff (hcanonical k hk bits hmem)
  have hget : buffer.getInt index [] = .ok bits.toInt64 := by
    rw [Buffer.getInt, hload, hk]
    rfl
  rw [readElement, hget, hk]
  simp only [ScalarKind.int.injEq]
  by_cases hword : InWord (k.read bits)
  · have hvalue := narrow?_eq_some_iff.mpr (IntKind.toInt_toInt64_of_inWord hword).symm
    rw [if_neg (hsign.mp hword), hvalue]
  · rw [if_pos (not_not.mp (mt hsign.mpr hword)), narrow?_eq_none_iff.mpr hword]

section Reachable

variable {field : FieldId} {name : String} {kind : ScalarKind} {index : List Bound}
  {buffer : Buffer} {k : IntKind} {vs : List Int64} (hr : e.storage.Reachable)
include hr

theorem follows_element (hbuffer : e.storage.primary? field = some buffer)
    (hk : buffer.kind = .int k) (hindex : e.evalAll index = .ok vs)
    (hvalues : e.exactValues? index = some (vs.map Int64.toInt))
    (hinner : (Bound.allVisits index).findSome? e.visitError? = none) :
    e.Follows (.load field name kind index) := by
  have henter : e.enterError? (.load field name kind index) = none := by
    simp [enterError?, hbuffer, hk, ScalarKind.isIntegral]
  have heval : e.eval (.load field name kind index) =
      readElement buffer name (Bound.text (.load field name kind index)) vs := by
    simp [eval, hbuffer, hk, hindex, ScalarKind.isIntegral, Bind.bind, Except.bind]
  have habsence : e.absence? (.load field name kind index) =
      (buffer.indexFault? (vs.map Int64.toInt)).map (.boundLoad name) := by
    simp [absence?, hbuffer, hvalues, Option.map_eq_bind]
  have hbuilt := (Registry.wellFormed_of_reachable hr).built hbuffer
  cases hfault : buffer.indexFault? (vs.map Int64.toInt) with
  | some cause =>
    have hread : readElement buffer name (Bound.text (.load field name kind index)) vs =
        .error (.boundLoad name cause) := by
      rw [readElement, Buffer.getInt, Buffer.load_of_indexFault?_eq_some hbuilt hfault]
      rfl
    rw [Follows, heval, hread, firstError?, Bound.visits, findSome?_around, henter, hinner,
      habsence, hfault]
    rfl
  | none =>
    have hcanonical := Buffer.canonical_invariant.of_reachable hr _ _ _ hbuffer
    obtain ⟨n, helement, hread⟩ := readElement_eq name
      (Bound.text (.load field name kind index)) hk hbuilt hcanonical hfault
    refine follows_of_value (n := n) (by rw [Bound.visits]) henter hinner ?_ ?_ (heval.trans hread)
    · rw [habsence, hfault]
      rfl
    · rw [exactValue?, hbuffer, hvalues]
      exact helement

theorem follows_load (hindex : ∀ i ∈ index, e.Follows i) :
    e.Follows (.load field name kind index) := by
  have hall := followsAll hindex
  cases hbuffer : e.storage.primary? field with
  | none =>
    rw [Follows, firstError?, Bound.visits, findSome?_around]
    simp [eval, enterError?, hbuffer]
  | some buffer =>
    cases hk : buffer.kind with
    | float =>
      rw [Follows, firstError?, Bound.visits, findSome?_around]
      simp [eval, enterError?, hbuffer, hk, ScalarKind.isIntegral]
    | int k =>
      cases hvalues : e.evalAll index with
      | error error =>
        rw [hvalues] at hall
        rw [Follows, firstError?, Bound.visits, findSome?_around, hall]
        simp [eval, enterError?, hbuffer, hk, hvalues, ScalarKind.isIntegral, Bind.bind, Except.bind]
      | ok vs =>
        rw [hvalues] at hall
        exact follows_element hr hbuffer hk hvalues hall.1 hall.2

theorem follows (b : Bound) : e.Follows b := by
  induction b with
  | int literal => exact follows_int literal
  | float value => exact follows_float value
  | param name kind => exact follows_param name kind
  | load field name kind index ih => exact follows_load hr ih
  | arith op left right ihl ihr => exact follows_arith ihl ihr

end Reachable

theorem eval_mem_of_evalAll {bs : List Bound} {vs : List Int64} (h : e.evalAll bs = .ok vs) :
    ∀ b ∈ bs, ∃ v, e.eval b = .ok v := by
  induction bs generalizing vs with
  | nil => simp
  | cons b bs ih =>
    simp only [evalAll, bind_eq_ok_iff, pure_eq_ok_iff] at h
    obtain ⟨v, hv, vs, hvs, -⟩ := h
    exact List.forall_mem_cons.mpr ⟨⟨v, hv⟩, ih hvs⟩

theorem eval_part {b part : Bound} {v : Int64} (h : e.eval b = .ok v) (hpart : part ∈ b.parts) :
    ∃ w, e.eval part = .ok w := by
  induction b generalizing v with
  | int literal => exact List.mem_singleton.mp hpart ▸ ⟨v, h⟩
  | float value => exact List.mem_singleton.mp hpart ▸ ⟨v, h⟩
  | param name kind => exact List.mem_singleton.mp hpart ▸ ⟨v, h⟩
  | load field name kind index ih =>
    obtain ⟨i, hi, hinner⟩ | rfl := Bound.mem_parts_load.mp hpart
    · rw [eval] at h
      split at h
      · cases h
      · split at h
        · obtain ⟨vs, hvs, -⟩ := bind_eq_ok_iff.mp h
          obtain ⟨w, hw⟩ := eval_mem_of_evalAll hvs i hi
          exact ih i hi hw hinner
        · cases h
    · exact ⟨v, h⟩
  | arith op left right ihl ihr =>
    have hoperands : (∃ a, e.eval left = .ok a) ∧ ∃ b, e.eval right = .ok b := by
      simp only [eval, bind_eq_ok_iff] at h
      obtain ⟨a, ha, b, hb, -⟩ := h
      exact ⟨⟨a, ha⟩, b, hb⟩
    obtain ⟨⟨a, ha⟩, b, hb⟩ := hoperands
    obtain hl | hr | rfl := Bound.mem_parts_arith.mp hpart
    · exact ihl ha hl
    · exact ihr hb hr
    · exact ⟨v, h⟩

section Reachable

variable (hr : e.storage.Reachable) {b : Bound}
include hr

theorem exactValue?_of_eval {v : Int64} (h : e.eval b = .ok v) :
    e.exactValue? b = some v.toInt := by
  have hfollows := follows hr b
  rw [Follows, h] at hfollows
  exact hfollows.1

theorem eval_eq_ok_iff {v : Int64} :
    e.eval b = .ok v ↔ e.exactValue? b = some v.toInt ∧
      ∀ part ∈ b.parts, ∃ n, e.exactValue? part = some n ∧ InWord n := by
  constructor
  · intro h
    refine ⟨exactValue?_of_eval hr h, fun part hpart => ?_⟩
    obtain ⟨w, hw⟩ := eval_part h hpart
    exact ⟨w.toInt, exactValue?_of_eval hr hw, inWord_toInt w⟩
  · rintro ⟨hvalue, hparts⟩
    have hfollows := follows hr b
    rw [Follows] at hfollows
    cases heval : e.eval b with
    | error error =>
      rw [heval, firstError?_eq_none hparts] at hfollows
      cases hfollows
    | ok w =>
      rw [heval, hvalue] at hfollows
      rw [Int64.toInt_inj.mp (Option.some.inj hfollows.1)]

theorem eval_eq_error_iff {error : LaunchError} :
    e.eval b = .error error ↔ e.firstError? b = some error := by
  have hfollows := follows hr b
  rw [Follows] at hfollows
  cases heval : e.eval b with
  | error found =>
    rw [heval] at hfollows
    rw [hfollows, Except.error.injEq, Option.some.injEq]
  | ok w =>
    rw [heval] at hfollows
    simp [hfollows.2]

theorem range_of_eval_load {field : FieldId} {name : String} {kind : ScalarKind}
    {index : List Bound} {w : Int64} (h : e.eval (.load field name kind index) = .ok w) :
    ∃ buffer k, e.storage.primary? field = some buffer ∧ buffer.kind = .int k ∧
      k.Range w.toInt := by
  have hvalue := exactValue?_of_eval hr h
  simp only [exactValue?, Option.bind_eq_bind, Option.bind_eq_some_iff] at hvalue
  obtain ⟨buffer, hbuffer, is, -, helement⟩ := hvalue
  obtain ⟨k, bits, hk, hbits, hread, -⟩ := Buffer.of_element?_eq_some helement
  refine ⟨buffer, k, hbuffer, hk, hread ▸ ?_⟩
  exact Buffer.canonical_invariant.of_reachable hr _ _ _ hbuffer k hk bits hbits

end Reachable

/-- Evaluation computes in the integers or fails. It succeeds when the bound and everything in it
has an exact value that fits in a signed word, and gives that value; what is loaded is in the range
of the kind that the field stores; and otherwise the answer is the error of the first check that
fails. -/
theorem eval_exact_or_first_error (hr : e.storage.Reachable) (b : Bound) :
    (∀ v, e.eval b = .ok v ↔ e.exactValue? b = some v.toInt ∧
      ∀ part ∈ b.parts, ∃ n, e.exactValue? part = some n ∧ InWord n) ∧
    (∀ field name kind index w, .load field name kind index ∈ b.parts →
      e.eval (.load field name kind index) = .ok w →
      ∃ buffer k, e.storage.primary? field = some buffer ∧ buffer.kind = .int k ∧
        k.Range w.toInt) ∧
    ∀ error, e.eval b = .error error ↔ ∃ before visit after,
      b.visits = before ++ visit :: after ∧ e.visitError? visit = some error ∧
        ∀ earlier ∈ before, e.visitError? earlier = none := by
  refine ⟨fun v => eval_eq_ok_iff hr,
    fun field name kind index w _ hw => range_of_eval_load hr hw, fun error => ?_⟩
  rw [eval_eq_error_iff hr, firstError?, List.findSome?_eq_some_iff]

theorem eval_exact_or_first_error_wrapped :
    let steps : List LayoutStep := [.declare ⟨"x", .int .u64, [], false⟩,
      .declare ⟨"n", .int .u8, [], false⟩, .block ⟨0⟩ .dense [2], .place ⟨1⟩ [⟨0⟩],
      .place ⟨0⟩ [⟨1⟩]]
    let history : List StorageStep := [.setInt ⟨1⟩ .primary [] [] 257,
      .setInt ⟨0⟩ .primary [1] [] (-1), .setInt ⟨0⟩ .primary [0] [] 9]
    let n : Bound := .load ⟨1⟩ "n" (.int .u8) []
    let last : Bound := .load ⟨0⟩ "x" (.int .u64) [n]
    let previous : Bound := .load ⟨0⟩ "x" (.int .u64) [.arith .sub n (.ofInt64 1)]
    ∃ r₀, (LayoutBuilder.ofSteps steps).finalize = .ok r₀ ∧
      eval ⟨.empty, history.foldl Registry.write r₀, true⟩ previous = .ok 9 ∧
      eval ⟨.empty, history.foldl Registry.write r₀, true⟩ (.arith .sub last previous) =
        .error (.boundOverflow "x[n[None]]") := by
  intro steps history n last previous
  let registry (x n : Array UInt64) : Registry :=
    ⟨#[.root, ⟨.block .dense [2], some ⟨0⟩, [2]⟩, ⟨.place [⟨0⟩], some ⟨1⟩, [2]⟩,
      ⟨.place [⟨1⟩], some ⟨0⟩, []⟩], #[⟨"x", .int .u64, [], false⟩, ⟨"n", .int .u8, [], false⟩],
      #[⟨⟨.int .u64, [2], [], x⟩, none⟩, ⟨⟨.int .u8, [], [], n⟩, none⟩]⟩
  let r := registry #[9, 0xffffffffffffffff] #[1]
  have hfinal : (LayoutBuilder.ofSteps steps).finalize = .ok (registry #[0, 0] #[0]) := by
    decide +kernel
  have hwrite : history.foldl Registry.write (registry #[0, 0] #[0]) = r := by decide +kernel
  have hr : r.Reachable := ⟨steps, _, history, hfinal, hwrite⟩
  refine ⟨_, hfinal, ?_, ?_⟩
  · rw [hwrite]
    refine ((eval_exact_or_first_error hr previous).1 9).mpr ⟨by decide +kernel, ?_⟩
    decide +kernel
  · rw [hwrite]
    let before : List Visit :=
      [.enter (.arith .sub last previous), .enter last, .enter n, .leave n]
    refine ((eval_exact_or_first_error hr _).2.2 _).mpr
      ⟨before, .leave last, _, rfl, ?_, ?_⟩
    · decide +kernel
    · decide +kernel

end Evaluator

end LoopNest
