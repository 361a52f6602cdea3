import IbtkJacobian.Quad9

/- What the `Quad9JacobianCalculator` constructor accepts. libMesh's
   `QBase::tensor_product_quad` builds a rule on the square from a 1-D rule with nodes
   `x_0, ..., x_{n-1}` as the points `(x_i, x_j)`, `j` the outer loop and `i` the inner, so
   that `x` varies fastest (`tensorPoints`); the constructor relies on this layout to rebuild
   the 1-D rule from the first `n` points.

   1. `d_n_oned_q_points = round(√Q)` is `roundSqrt Q` in exact arithmetic
      (`roundSqrt_eq_round`), so the first check passes exactly on perfect squares.
   2. A list of `n²` points passes the second check iff it is the tensor product of its first
      row (`eq_tensorPoints_of_isTensorRule`, `isTensorRule_tensorPoints`), and reading the
      first row of `tensorPoints xs` gives back `xs` (`range_map_onedPoint_tensorPoints`).
   3. Hence the constructor accepts exactly the tensor-product rules, rebuilds their 1-D
      nodes and tabulates the `EDGE3` basis at them (`quad9_new_accepts_tensor_products`);
      it reports a rule of non-square size as `nonSquareRule` and every other rule it rejects
      as `notTensorProduct` (`quad9_new_error_iff`). -/

namespace IBTK

variable {R : Type} [LinearOrderedField R]

/-- The points of `QBase::tensor_product_quad` over a 1-D rule with nodes `xs`: `(x_i, x_j)`
for `j`, then `i`, in increasing order. -/
def tensorPoints (xs : List R) : List (Point R) :=
  xs.flatMap fun y => xs.map fun x => ![x, y, 0]

theorem length_tensorPoints (xs : List R) :
    (tensorPoints xs).length = xs.length * xs.length := by
  simp [tensorPoints, List.length_flatMap, Function.comp_def, List.map_const']

theorem getD_flatMap_of_length {α β : Type} {f : α → List β} {n : Nat}
    (hf : ∀ a, (f a).length = n) (d : β) {i : Nat} (hi : i < n) :
    ∀ (ys : List α) (j : Nat) (hj : j < ys.length),
      (ys.flatMap f).getD (j * n + i) d = (f ys[j]).getD i d
  | [], _, hj => absurd hj (Nat.not_lt_zero _)
  | y :: ys, 0, _ => by
    rw [List.flatMap_cons, Nat.zero_mul, Nat.zero_add,
      List.getD_append _ _ _ _ (by rw [hf]; exact hi)]
    rfl
  | y :: ys, j + 1, hj => by
    rw [List.flatMap_cons, List.getD_append_right _ _ _ _ (by rw [hf, Nat.succ_mul]; omega), hf,
      show (j + 1) * n + i - n = j * n + i by rw [Nat.succ_mul]; omega,
      getD_flatMap_of_length hf d hi ys j (by simpa using hj)]
    rfl

theorem tensorPoints_getD {xs : List R} {n j i : Nat} (hn : xs.length = n) (hj : j < n)
    (hi : i < n) :
    (tensorPoints xs).getD (j * n + i) 0 = ![xs.getD i 0, xs.getD j 0, 0] := by
  subst hn
  rw [tensorPoints, getD_flatMap_of_length (fun _ => List.length_map _ _) 0 hi xs j hj,
    List.getD_eq_getElem _ _ (by simpa using hi), List.getElem_map,
    List.getD_eq_getElem _ _ hi, List.getD_eq_getElem _ _ hj]

theorem getD_range_map (f : Nat → R) {n k : Nat} (hk : k < n) :
    ((List.range n).map f).getD k 0 = f k := by
  simp [hk]

theorem onedPoint_tensorPoints (xs : List R) {i : Nat} (hi : i < xs.length) :
    onedPoint (tensorPoints xs) i = xs.getD i 0 := by
  have h := @tensorPoints_getD R _ xs xs.length 0 i rfl (by omega) hi
  rw [Nat.zero_mul, Nat.zero_add] at h
  rw [onedPoint, h]
  rfl

/-- **Round trip.** Rebuilding the 1-D rule from a tensor product gives back its nodes. -/
theorem range_map_onedPoint_tensorPoints (xs : List R) :
    (List.range xs.length).map (onedPoint (tensorPoints xs)) = xs :=
  List.ext_getElem (by simp) fun k h1 h2 => by
    rw [← List.getD_eq_getElem _ 0 h1, ← List.getD_eq_getElem _ 0 h2, getD_range_map _ h2,
      onedPoint_tensorPoints xs h2]

theorem isTensorRule_tensorPoints (xs : List R) : IsTensorRule (tensorPoints xs) xs.length :=
  fun j hj i hi => by
    rw [tensorPoints_getD rfl hj hi, onedPoint_tensorPoints xs hi, onedPoint_tensorPoints xs hj]

/-- A list of `n²` points that passes the second check is the tensor product of its first
row. -/
theorem eq_tensorPoints_of_isTensorRule {P : List (Point R)} {n : Nat} (hQ : P.length = n * n)
    (hT : IsTensorRule P n) : P = tensorPoints ((List.range n).map (onedPoint P)) := by
  have hn : ((List.range n).map (onedPoint P)).length = n := by simp
  refine List.ext_getElem (by rw [length_tensorPoints, hn, hQ]) fun q h1 h2 => ?_
  have hq : q < n * n := hQ ▸ h1
  have hpos : 0 < n := Nat.pos_of_ne_zero fun h0 => by simp [h0] at hq
  have hx : q % n < n := Nat.mod_lt q hpos
  have hy : q / n < n := (Nat.div_lt_iff_lt_mul hpos).mpr hq
  rw [← List.getD_eq_getElem _ 0 h1, hT.point_eq hq, ← List.getD_eq_getElem _ 0 h2,
    ← Nat.div_add_mod' q n, tensorPoints_getD hn hy hx, Nat.div_add_mod' q n,
    getD_range_map _ hx, getD_range_map _ hy]

/-- `std::round(std::sqrt(Q))` in exact arithmetic is `roundSqrt Q`: with `s = ⌊√Q⌋`,
`√Q < s + 1/2` exactly when `Q ≤ s² + s`, since `(s + 1/2)² = s² + s + 1/4`. -/
theorem roundSqrt_eq_round (Q : Nat) : (roundSqrt Q : ℤ) = round (Real.sqrt Q) := by
  have hs : Nat.sqrt Q * Nat.sqrt Q ≤ Q := Nat.sqrt_le Q
  have hs' : Q < (Nat.sqrt Q + 1) * (Nat.sqrt Q + 1) := Nat.lt_succ_sqrt Q
  rw [round_eq, eq_comm, Int.floor_eq_iff]
  dsimp only [roundSqrt]
  set s := Nat.sqrt Q
  have hhalf : ((s : ℝ) + 1 / 2) ^ 2 = s * s + s + 1 / 4 := by ring
  split_ifs with h
  · have hQ : (Q : ℝ) ≤ s * s + s := by exact_mod_cast (show Q ≤ s * s + s by omega)
    have h1 : (s : ℝ) ≤ Real.sqrt Q :=
      (Real.le_sqrt (by positivity) (by positivity)).mpr (by rw [sq]; exact_mod_cast hs)
    have h2 : Real.sqrt Q < s + 1 / 2 := (Real.sqrt_lt' (by positivity)).mpr (by linarith)
    push_cast
    constructor <;> linarith
  · have hQ : (s : ℝ) * s + s + 1 ≤ Q := by exact_mod_cast (show s * s + s + 1 ≤ Q by omega)
    have h1 : (s : ℝ) + 1 / 2 ≤ Real.sqrt Q :=
      (Real.le_sqrt (by positivity) (by positivity)).mpr (by linarith)
    have h2 : Real.sqrt Q < s + 1 :=
      (Real.sqrt_lt' (by positivity)).mpr (by rw [sq]; exact_mod_cast hs')
    push_cast
    constructor <;> linarith

namespace Quad9JacobianCalculator

variable {quadKey : KeyType} {rule : QRule R}

/-- The constructor on a tensor product: it keeps the base's state, and its tables are the
`EDGE3` basis at the 1-D nodes. -/
theorem new_of_tensorPoints {xs : List R} (hP : rule.points = tensorPoints xs) :
    new quadKey rule = .ok { JacobianCalculator.new quadKey rule with
      nOnedQPoints := xs.length
      phi := fun i => xs.map (edge3Shape (ibamrToLibmeshOrdering i))
      dphi := fun i => xs.map (edge3ShapeDeriv (ibamrToLibmeshOrdering i)) } := by
  have hn : roundSqrt rule.points.length = xs.length := by
    rw [hP, length_tensorPoints, roundSqrt_mul_self]
  have hxs : (List.range xs.length).map (onedPoint rule.points) = xs :=
    hP ▸ range_map_onedPoint_tensorPoints xs
  have hmap : ∀ g : R → R,
      (List.range xs.length).map (fun q => g (onedPoint rule.points q)) = xs.map g := fun g => by
    conv_rhs => rw [← hxs]
    rw [List.map_map]
    rfl
  refine new_eq_ok.mpr ⟨by rw [hn, hP, length_tensorPoints],
    hn ▸ hP ▸ isTensorRule_tensorPoints xs, ?_⟩
  simp only [hn, hmap]

/-- What the constructor accepts is the tensor product of the 1-D nodes it reads. -/
theorem new_ok_tensorPoints {c : Quad9JacobianCalculator R} (h : new quadKey rule = .ok c) :
    rule.points = tensorPoints ((List.range c.nOnedQPoints).map (onedPoint rule.points)) := by
  obtain ⟨hsq, hT, rfl⟩ := new_eq_ok.mp h
  exact eq_tensorPoints_of_isTensorRule hsq.symm hT

theorem new_of_not_square (h : ¬ roundSqrt rule.points.length * roundSqrt rule.points.length =
    rule.points.length) : new quadKey rule = .error .nonSquareRule := by
  simp only [new, JacobianCalculator.new_quadPoints, if_neg h]

theorem new_ne_nonSquareRule (hsq : roundSqrt rule.points.length * roundSqrt rule.points.length =
    rule.points.length) : new quadKey rule ≠ .error .nonSquareRule := fun h => by
  simp only [new, JacobianCalculator.new_quadPoints, if_pos hsq] at h
  rw [mapM_onedPoint (range_roundSqrt_lt hsq), ok_bind] at h
  obtain hloop | ⟨u, -, h⟩ := bind_eq_error.mp h
  · exact absurd (tensorLoop_eq_error hsq.symm hloop) (by decide)
  · cases h

end Quad9JacobianCalculator

/-- **The constructor accepts exactly the tensor-product rules.** For every 1-D node list
`xs`, the rule `tensorPoints xs` is accepted: the base's state is kept, `n` is `|xs|`, and
the tables are the `EDGE3` basis, left to right, at the `x_i`. Conversely every rule the
constructor accepts is the tensor product of the 1-D nodes it reads off its first row. -/
theorem quad9_new_accepts_tensor_products (quadKey : KeyType) (rule : QRule R) :
    (∀ xs : List R, rule.points = tensorPoints xs →
      ∃ c : Quad9JacobianCalculator R, Quad9JacobianCalculator.new quadKey rule = .ok c ∧
        c.toJacobianCalculator = JacobianCalculator.new quadKey rule ∧
        c.nOnedQPoints = xs.length ∧
        (∀ i, c.phi i = xs.map (edge3Shape (ibamrToLibmeshOrdering i))) ∧
        ∀ i, c.dphi i = xs.map (edge3ShapeDeriv (ibamrToLibmeshOrdering i))) ∧
    ∀ c, Quad9JacobianCalculator.new quadKey rule = .ok c →
      rule.points = tensorPoints ((List.range c.nOnedQPoints).map (onedPoint rule.points)) :=
  ⟨fun _ hP => ⟨_, Quad9JacobianCalculator.new_of_tensorPoints hP, rfl, rfl, fun _ => rfl,
    fun _ => rfl⟩, fun _ => Quad9JacobianCalculator.new_ok_tensorPoints⟩

/-- **The constructor's verdicts.** `round(√Q)` is `roundSqrt Q`; the constructor reports
`nonSquareRule` exactly when `Q` is not a perfect square, `notTensorProduct` exactly when it
is one but the rule is no tensor product, and nothing else. -/
theorem quad9_new_error_iff (quadKey : KeyType) (rule : QRule R) :
    (roundSqrt rule.points.length : ℤ) = round (Real.sqrt rule.points.length) ∧
    (Quad9JacobianCalculator.new quadKey rule = .error .nonSquareRule ↔
      ¬ ∃ n, n * n = rule.points.length) ∧
    (Quad9JacobianCalculator.new quadKey rule = .error .notTensorProduct ↔
      (∃ n, n * n = rule.points.length) ∧ ¬ ∃ xs, rule.points = tensorPoints xs) ∧
    ∀ e, Quad9JacobianCalculator.new quadKey rule = .error e →
      e = .nonSquareRule ∨ e = .notTensorProduct := by
  have hsq : roundSqrt rule.points.length * roundSqrt rule.points.length = rule.points.length ↔
      ∃ n, n * n = rule.points.length :=
    ⟨fun h => ⟨_, h⟩, fun ⟨n, hn⟩ => by rw [← hn, roundSqrt_mul_self]⟩
  refine ⟨roundSqrt_eq_round _,
    ⟨fun h hs => Quad9JacobianCalculator.new_ne_nonSquareRule (hsq.mpr hs) h,
      fun h => Quad9JacobianCalculator.new_of_not_square (mt hsq.mp h)⟩,
    ⟨fun h => ⟨?_, ?_⟩, fun ⟨hs, hT⟩ => ?_⟩, fun _ => Quad9JacobianCalculator.new_eq_error⟩
  · by_contra hs
    rw [Quad9JacobianCalculator.new_of_not_square (mt hsq.mp hs)] at h
    cases h
  · rintro ⟨xs, hP⟩
    rw [Quad9JacobianCalculator.new_of_tensorPoints hP] at h
    cases h
  · cases hc : Quad9JacobianCalculator.new quadKey rule with
    | ok c => exact absurd ⟨_, Quad9JacobianCalculator.new_ok_tensorPoints hc⟩ hT
    | error e =>
      rcases Quad9JacobianCalculator.new_eq_error hc with rfl | rfl
      · exact absurd hc (Quad9JacobianCalculator.new_ne_nonSquareRule (hsq.mpr hs))
      · rfl

end IBTK
