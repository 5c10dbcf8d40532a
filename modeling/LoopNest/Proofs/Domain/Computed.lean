import LoopNest.Proofs.Domain.Grammar
import LoopNest.Proofs.GroupedIndex

/-! Domains over computed bounds, as the body of an outer loop makes them. The components of two
indices become literals; they are accepted whatever they are, known before launch, and resolve to
themselves with any arguments and any storage. -/

namespace LoopNest

namespace ResolvedDomain

def between (lower upper : GroupedIndex) : ResolvedDomain :=
  ⟨List.zipWith ResolvedAxis.mk lower.toList upper.toList⟩

def upTo (upper : GroupedIndex) : ResolvedDomain := ⟨upper.toList.map (ResolvedAxis.mk 0)⟩

theorem rank_between (lower upper : GroupedIndex) :
    (between lower upper).rank = min lower.toList.length upper.toList.length :=
  List.length_zipWith

theorem rank_upTo (upper : GroupedIndex) : (upTo upper).rank = upper.toList.length :=
  List.length_map _

end ResolvedDomain

section Literals

variable (v : Int64)

theorem IntLiteral.toInt64?_ofInt64 : (ofInt64 v).toInt64? = some v := narrow?_toInt v

theorem Bound.acceptable_ofInt64 : (Bound.ofInt64 v).Acceptable := by
  intro part hpart
  obtain rfl := List.mem_singleton.mp hpart
  simp [IsFloating, IsOversized, IntLiteral.ofInt64]

theorem foldConstants_ofInt64 : foldConstants (.ofInt64 v) = some v :=
  IntLiteral.toInt64?_ofInt64 v

theorem foldConstants_zero : foldConstants (.int .zero) = some 0 := rfl

end Literals

/-- A leaf whose axis is known to be `r` without a look at arguments or storage. -/
structure LeafArg.Fixes (leaf : LeafArg) (r : ResolvedAxis) : Prop where
  wellFormed : leaf.WellFormed
  folds : ∀ a, leaf.Denotes a →
    foldConstants a.lower = some r.lower ∧ foldConstants a.upper = some r.upper

theorem LeafArg.fixes_pair (l u : Int64) : Fixes (.seq [.ofInt64 l, .ofInt64 u]) ⟨l, u⟩ where
  wellFormed := ⟨rfl, by simp [Bound.acceptable_ofInt64]⟩
  folds a ha := by
    obtain ⟨hl, hu⟩ : Bound.ofInt64 l = a.lower ∧ Bound.ofInt64 u = a.upper := by
      simpa [Denotes] using ha
    exact ⟨hl ▸ foldConstants_ofInt64 l, hu ▸ foldConstants_ofInt64 u⟩

theorem LeafArg.fixes_scalar (u : Int64) : Fixes (.scalar (.ofInt64 u)) ⟨0, u⟩ where
  wellFormed := Bound.acceptable_ofInt64 u
  folds a ha := by
    rw [Denotes] at ha
    exact ha ▸ ⟨foldConstants_zero, foldConstants_ofInt64 u⟩

namespace RangeArg

open LeafArg

theorem fixes_between (lower upper : GroupedIndex) :
    List.Forall₂ Fixes (flattenAll [between lower upper])
      (ResolvedDomain.between lower upper).axes := by
  rw [flattenAll, flattenAll, List.append_nil, between, flatten, ResolvedDomain.between]
  generalize lower.toList = ls
  generalize upper.toList = us
  induction ls generalizing us with
  | nil => exact .nil
  | cons l ls ih =>
    cases us with
    | nil => exact .nil
    | cons u us => exact .cons (fixes_pair l u) (ih us)

theorem fixes_ofGrouped (upper : GroupedIndex) :
    List.Forall₂ Fixes (flattenAll [ofGrouped upper]) (ResolvedDomain.upTo upper).axes := by
  rw [flattenAll, flattenAll, List.append_nil, ofGrouped, flatten, ResolvedDomain.upTo]
  induction upper.toList with
  | nil => exact .nil
  | cons u us ih => exact .cons (fixes_scalar u) ih

end RangeArg

namespace RangeDomain

open RangeArg

variable {args : List RangeArg} {d : RangeDomain} {r : ResolvedDomain}

theorem foldStatic_of_fixes (hfixes : List.Forall₂ LeafArg.Fixes (flattenAll args) r.axes)
    (hd : ofArguments args = .ok d) : d.foldStatic foldConstants = .ok r := by
  rw [foldStatic_eq_ok_iff]
  obtain ⟨-, -, hdenotes⟩ := ofArguments_eq_ok hd
  generalize flattenAll args = leaves at hfixes hdenotes
  generalize r.axes = known at hfixes ⊢
  generalize d.axes = axes at hdenotes ⊢
  induction hdenotes generalizing known with
  | nil =>
    cases hfixes
    exact .nil
  | cons hleaf _ ih =>
    obtain _ | ⟨hfix, hrest⟩ := hfixes
    exact .cons (hfix.folds _ hleaf) (ih _ hrest)

theorem exists_of_fixes (hfixes : List.Forall₂ LeafArg.Fixes (flattenAll args) r.axes)
    (hpos : 0 < r.rank) (hle : r.rank ≤ maxRank) :
    ∃ d, ofArguments args = .ok d ∧ d.rank = r.rank ∧ d.foldStatic foldConstants = .ok r ∧
      ∀ e, d.resolve e = .ok r := by
  obtain ⟨hleaves, -⟩ := (List.forall₂_and_left _ _).mp (hfixes.imp fun _ _ h => ⟨h.wellFormed, h⟩)
  obtain ⟨d, hd⟩ : ∃ d, ofArguments args = .ok d :=
    exists_ofArguments_iff.mpr ⟨hleaves, hfixes.length_eq ▸ ⟨hpos, hle⟩⟩
  have hfold := foldStatic_of_fixes hfixes hd
  exact ⟨d, hd, (foldStatic_eq_ok_iff.mp hfold).length_eq, hfold,
    fun e => resolve_of_foldStatic (foldConstants_soundFor e) hfold⟩

theorem exists_between {lower upper : GroupedIndex}
    (hpos : 0 < min lower.toList.length upper.toList.length) :
    ∃ d, ofArguments [.between lower upper] = .ok d ∧
      d.rank = min lower.toList.length upper.toList.length ∧
      d.foldStatic foldConstants = .ok (.between lower upper) ∧
      ∀ e, d.resolve e = .ok (.between lower upper) := by
  rw [← ResolvedDomain.rank_between] at hpos ⊢
  refine exists_of_fixes (fixes_between lower upper) hpos ?_
  rw [ResolvedDomain.rank_between]
  exact le_trans (Nat.min_le_left ..) lower.length_toList_le

theorem exists_ofGrouped {upper : GroupedIndex} (hpos : 0 < upper.toList.length) :
    ∃ d, ofArguments [.ofGrouped upper] = .ok d ∧ d.rank = upper.toList.length ∧
      d.foldStatic foldConstants = .ok (.upTo upper) ∧
      ∀ e, d.resolve e = .ok (.upTo upper) := by
  rw [← ResolvedDomain.rank_upTo] at hpos ⊢
  exact exists_of_fixes (fixes_ofGrouped upper) hpos
    (ResolvedDomain.rank_upTo upper ▸ upper.length_toList_le)

end RangeDomain

end LoopNest
