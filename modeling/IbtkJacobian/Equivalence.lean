import IbtkJacobian.Lagrange
import IbtkJacobian.Kernels
import IbtkJacobian.Quad9
import IbtkJacobian.Isoparametric

/- The specialised kernels against the generic path. Built for the same key and rule, with
   the generic path's table filled by libMesh's shape derivatives for the key's element type,
   the two compute the same `J` at every quadrature point, and that `J` is the determinant of
   the derivative of the map the element defines:

     `quad4_jacobian_eq_lagrange`  `Quad4` and `LagrangeJacobianCalculator<2, 2>` on `QUAD4`;
     `quad9_jacobian_eq_lagrange`  `Quad9` and `LagrangeJacobianCalculator<2, 2>` on `QUAD9`,
                                   for every rule the `Quad9` constructor accepts;
     `affine_jacobian_eq_lagrange` `Tri3` and `Tet4` against `<2, 2>` on `TRI3` and `<3, 3>`
                                   on `TET4`.

   The per-point kernels share the loop, so the quadrilaterals return the same `JxW` and
   reject the same elements for every rule. `Tri3` and `Tet4` assert their constant `J`
   once, before the loop, so they agree with the generic path on every rule with points;
   `QBase::build` and `init` never give a rule without. -/

namespace IBTK

section Kernels

variable {R : Type} [LinearOrderedField R]

theorem jacobianOf_two (sqrt : R → R) (F : Fin 2 → Fin 2 → R) :
    jacobianOf sqrt F = .ok (F 0 0 * F 1 1 - F 0 1 * F 1 0) := by
  simp [jacobianOf, determinant]

theorem jacobianOf_three (sqrt : R → R) (F : Fin 3 → Fin 3 → R) :
    jacobianOf sqrt F = .ok (F 0 0 * (F 1 1 * F 2 2 - F 1 2 * F 2 1) -
      F 1 0 * (F 0 1 * F 2 2 - F 0 2 * F 2 1) + F 2 0 * (F 0 1 * F 1 2 - F 0 2 * F 1 1)) := by
  simp [jacobianOf, determinant]

/-- Column `ξ` of the `QUAD4` contravariant matrix, in coordinate `c`: the kernel's
`a + c·η`. -/
theorem quad4_sum_xi (p : Fin 4 → Point R) (pt : Point R) (c : Fin 3) :
    ∑ n, p n c * quad4ShapeDeriv n 0 pt =
      0.25 * (-p 0 c + p 1 c + p 2 c - p 3 c) + 0.25 * (p 0 c - p 1 c + p 2 c - p 3 c) * pt 1 := by
  simp only [quad4ShapeDeriv, edge2ShapeDeriv, quad4I0, edge2Shape, quad4I1, Matrix.cons_val_zero,
    Fin.sum_univ_four, neg_mul, mul_neg, Matrix.cons_val_one, Matrix.head_cons, Matrix.cons_val_two,
    Matrix.tail_cons, Matrix.cons_val_three]
  ring

theorem quad4_sum_eta (p : Fin 4 → Point R) (pt : Point R) (c : Fin 3) :
    ∑ n, p n c * quad4ShapeDeriv n 1 pt =
      0.25 * (-p 0 c - p 1 c + p 2 c + p 3 c) + 0.25 * (p 0 c - p 1 c + p 2 c - p 3 c) * pt 0 := by
  simp only [quad4ShapeDeriv, edge2ShapeDeriv, quad4I0, edge2Shape, quad4I1, Matrix.cons_val_one,
    Matrix.head_cons, Fin.sum_univ_four, Matrix.cons_val_zero, mul_neg, Matrix.cons_val_two,
    Matrix.tail_cons, Matrix.cons_val_three]
  ring

theorem quad4_jacobian_eq (p : Fin 4 → Point R) (pt : Point R) :
    (Quad4Coefficients.of (p 0) (p 1) (p 2) (p 3)).jacobian (pt 0) (pt 1) =
      (∑ n, p n 0 * quad4ShapeDeriv n 0 pt) * (∑ n, p n 1 * quad4ShapeDeriv n 1 pt) -
        (∑ n, p n 0 * quad4ShapeDeriv n 1 pt) * (∑ n, p n 1 * quad4ShapeDeriv n 0 pt) := by
  rw [quad4_sum_xi, quad4_sum_xi, quad4_sum_eta, quad4_sum_eta]
  rfl

/-- The kernel's grid, with both axes read through `ibamr_to_libmesh_ordering`, is libMesh's
`QUAD9` numbering. -/
theorem quad9_grid_sum (F : Point R → Fin 3 → Fin 3 → R) (X : Nat → Point R) :
    ∑ i, ∑ j, F (Quad9JacobianCalculator.grid X i j) (ibamrToLibmeshOrdering j)
        (ibamrToLibmeshOrdering i) = ∑ n : Fin 9, F (X n) (quad9I0 n) (quad9I1 n) := by
  rw [← Fintype.sum_prod_type']
  refine Fintype.sum_bijective _ Quad9JacobianCalculator.gridNode_bijective _ _ fun p => ?_
  obtain ⟨h0, h1⟩ := Quad9JacobianCalculator.quad9I_gridNode p.1 p.2
  rw [Quad9JacobianCalculator.grid_eq, h0, h1]

/-- The tensor-product sum along `ξ` over the 3×3 grid is libMesh's `QUAD9` sum over its
nine nodes. -/
theorem quad9_grid_sum_xi (X : Nat → Point R) (x y : R) (c : Fin 3) :
    ∑ i, ∑ j, Quad9JacobianCalculator.grid X i j c *
        edge3ShapeDeriv (ibamrToLibmeshOrdering j) x * edge3Shape (ibamrToLibmeshOrdering i) y =
      ∑ n : Fin 9, X n c * quad9ShapeDeriv n 0 ![x, y, 0] :=
  (quad9_grid_sum (fun p a b => p c * edge3ShapeDeriv a x * edge3Shape b y) X).trans <|
    Finset.sum_congr rfl fun _ _ => mul_assoc _ _ _

theorem quad9_grid_sum_eta (X : Nat → Point R) (x y : R) (c : Fin 3) :
    ∑ i, ∑ j, Quad9JacobianCalculator.grid X i j c *
        edge3Shape (ibamrToLibmeshOrdering j) x * edge3ShapeDeriv (ibamrToLibmeshOrdering i) y =
      ∑ n : Fin 9, X n c * quad9ShapeDeriv n 1 ![x, y, 0] :=
  (quad9_grid_sum (fun p a b => p c * edge3Shape a x * edge3ShapeDeriv b y) X).trans <|
    Finset.sum_congr rfl fun _ _ => mul_assoc _ _ _

/-- The `Quad9` kernel on the `EDGE3` tables at `(x, y)` is the 2×2 determinant of the `QUAD9`
contravariant matrix. -/
theorem quad9_jacobian_eq (X : Nat → Point R) (x y : R) :
    Quad9JacobianCalculator.jacobian (fun i j => Quad9JacobianCalculator.grid X i j 0)
        (fun i j => Quad9JacobianCalculator.grid X i j 1)
        (fun k => edge3Shape (ibamrToLibmeshOrdering k) x)
        (fun k => edge3ShapeDeriv (ibamrToLibmeshOrdering k) x)
        (fun k => edge3Shape (ibamrToLibmeshOrdering k) y)
        (fun k => edge3ShapeDeriv (ibamrToLibmeshOrdering k) y) =
      (∑ n : Fin 9, X n 0 * quad9ShapeDeriv n 0 ![x, y, 0]) *
          (∑ n : Fin 9, X n 1 * quad9ShapeDeriv n 1 ![x, y, 0]) -
        (∑ n : Fin 9, X n 0 * quad9ShapeDeriv n 1 ![x, y, 0]) *
          (∑ n : Fin 9, X n 1 * quad9ShapeDeriv n 0 ![x, y, 0]) := by
  simp only [Quad9JacobianCalculator.jacobian]
  rw [quad9_grid_sum_xi, quad9_grid_sum_xi, quad9_grid_sum_eta, quad9_grid_sum_eta]

theorem tri3_jacobian_eq_det (p0 p1 p2 : Point R) :
    Tri3JacobianCalculator.jacobian p0 p1 p2 =
      !![p1 0 - p0 0, p2 0 - p0 0; p1 1 - p0 1, p2 1 - p0 1].det := by
  simp [Tri3JacobianCalculator.jacobian, Matrix.det_fin_two_of]

theorem tet4_jacobian_eq_det (p0 p1 p2 p3 : Point R) :
    Tet4JacobianCalculator.jacobian p0 p1 p2 p3 =
      (Matrix.of fun i j : Fin 3 => ![p1, p2, p3] j i - p0 i).det := by
  simp only [Tet4JacobianCalculator.jacobian, Matrix.cons_val', Matrix.empty_val',
    Matrix.cons_val_fin_one, Matrix.det_fin_three, Matrix.of_apply, Matrix.cons_val_zero,
    Matrix.cons_val_one, Matrix.head_cons, Matrix.cons_val_two, Matrix.tail_cons,
    Matrix.head_fin_const]
  ring

end Kernels

section Quad4

variable {R : Type} [LinearOrderedField R] {qt : QuadratureType} {o : Nat} {rule : QRule R}
  {cL : LagrangeJacobianCalculator R 2 2}

theorem lagrange_quad4_jacobianOf
    (hL : LagrangeJacobianCalculator.new ⟨.QUAD4, qt, o⟩ rule quad4ShapeDeriv = .ok cL)
    (sqrt : R → R) (elem : Elem R) {q : Nat} (hq : q < rule.points.length) :
    jacobianOf sqrt (cL.contravariant elem q) =
      .ok ((Quad4Coefficients.of (elem.node 0) (elem.node 1) (elem.node 2) (elem.node 3)).jacobian
        (rule.points.getD q 0 0) (rule.points.getD q 0 1)) := by
  rw [LagrangeJacobianCalculator.contravariant_of_new hL (show getNNodes .QUAD4 = 4 from rfl)
    elem hq,
    jacobianOf_two]
  erw [quad4_jacobian_eq (fun n : Fin 4 => elem.node n) (rule.points.getD q 0)]
  simp

theorem quad4_getJxW_eq_lagrange
    (hL : LagrangeJacobianCalculator.new ⟨.QUAD4, qt, o⟩ rule quad4ShapeDeriv = .ok cL)
    (sqrt : R → R) (elem : Elem R) :
    (Quad4JacobianCalculator.new ⟨.QUAD4, qt, o⟩ rule).getJxW elem = cL.getJxW sqrt elem := by
  rw [LagrangeJacobianCalculator.getJxW_of_new hL (by norm_num)]
  split_ifs with he
  · rw [Quad4JacobianCalculator.getJxW_eq (Quad4JacobianCalculator.new_wf ⟨.QUAD4, qt, o⟩ rule)
      he (by rw [he]; exact le_rfl)]
    refine scaleJxW_congr fun q hq => ?_
    rw [Nat.zero_add, lagrange_quad4_jacobianOf hL sqrt elem (by rw [rule.length_eq]; exact hq)]
    rfl
  · exact Quad4JacobianCalculator.getJxW_of_ne he

end Quad4

section Quad9

variable {R : Type} [LinearOrderedField R] {qt : QuadratureType} {o : Nat} {rule : QRule R}
  {c9 : Quad9JacobianCalculator R} {cL : LagrangeJacobianCalculator R 2 2}

/-- The `QUAD9` contravariant determinant at `(ξ, η)`, as sums over the nine nodes. -/
def quad9Sums (X : Nat → Point R) (ξ η : R) : R :=
  (∑ n : Fin 9, X n 0 * quad9ShapeDeriv n 0 ![ξ, η, 0]) *
      (∑ n : Fin 9, X n 1 * quad9ShapeDeriv n 1 ![ξ, η, 0]) -
    (∑ n : Fin 9, X n 0 * quad9ShapeDeriv n 1 ![ξ, η, 0]) *
      (∑ n : Fin 9, X n 1 * quad9ShapeDeriv n 0 ![ξ, η, 0])

theorem quad9_jacobianAt_eq (h9 : Quad9JacobianCalculator.new ⟨.QUAD9, qt, o⟩ rule = .ok c9)
    (X : Nat → Point R) {q : Nat} (hq : q < rule.points.length) :
    c9.jacobianAt (fun i j => Quad9JacobianCalculator.grid X i j 0)
        (fun i j => Quad9JacobianCalculator.grid X i j 1) q =
      .ok (quad9Sums X (onedPoint rule.points (q % c9.nOnedQPoints))
        (onedPoint rule.points (q / c9.nOnedQPoints))) := by
  have hw := Quad9JacobianCalculator.new_wf h9
  obtain ⟨hsq, -, rfl⟩ := Quad9JacobianCalculator.new_eq_ok.mp h9
  have hqn : q < roundSqrt rule.points.length * roundSqrt rule.points.length := by rwa [hsq]
  have hn : 0 < roundSqrt rule.points.length := Nat.pos_of_ne_zero fun h0 => by simp [h0] at hqn
  rw [Quad9JacobianCalculator.jacobianAt_of_lt hw _ _
    (show q < rule.weights.length by rw [← rule.length_eq]; exact hq)]
  simp only [Quad9JacobianCalculator.columnOf_map _ (Nat.mod_lt q hn),
    Quad9JacobianCalculator.columnOf_map _ ((Nat.div_lt_iff_lt_mul hn).mpr hqn)]
  rw [quad9_jacobian_eq]
  rfl

theorem lagrange_quad9_jacobianOf_eq
    (h9 : Quad9JacobianCalculator.new ⟨.QUAD9, qt, o⟩ rule = .ok c9)
    (hL : LagrangeJacobianCalculator.new ⟨.QUAD9, qt, o⟩ rule quad9ShapeDeriv = .ok cL)
    (sqrt : R → R) (elem : Elem R) {q : Nat} (hq : q < rule.points.length) :
    jacobianOf sqrt (cL.contravariant elem q) =
      .ok (quad9Sums elem.node (onedPoint rule.points (q % c9.nOnedQPoints))
        (onedPoint rule.points (q / c9.nOnedQPoints))) := by
  obtain ⟨hsq, hT, rfl⟩ := Quad9JacobianCalculator.new_eq_ok.mp h9
  rw [LagrangeJacobianCalculator.contravariant_of_new hL (show getNNodes .QUAD9 = 9 from rfl)
      elem hq, jacobianOf_two, hT.point_eq (by rwa [hsq])]
  simp [quad9Sums]

theorem quad9_getJxW_eq_lagrange (h9 : Quad9JacobianCalculator.new ⟨.QUAD9, qt, o⟩ rule = .ok c9)
    (hL : LagrangeJacobianCalculator.new ⟨.QUAD9, qt, o⟩ rule quad9ShapeDeriv = .ok cL)
    (sqrt : R → R) (elem : Elem R) : c9.getJxW elem = cL.getJxW sqrt elem := by
  have hw := Quad9JacobianCalculator.new_wf h9
  have h9k : c9.toJacobianCalculator = JacobianCalculator.new ⟨.QUAD9, qt, o⟩ rule := by
    obtain ⟨-, -, rfl⟩ := Quad9JacobianCalculator.new_eq_ok.mp h9; rfl
  rw [LagrangeJacobianCalculator.getJxW_of_new hL (by norm_num)]
  split_ifs with he
  · rw [Quad9JacobianCalculator.getJxW_eq hw (by rw [he, h9k]; rfl) (by rw [he]; exact le_rfl),
      show c9.quadWeights = rule.weights by rw [h9k]; rfl]
    refine scaleJxW_congr fun q hq => ?_
    have hq' : q < rule.points.length := by rw [rule.length_eq]; omega
    rw [Nat.zero_add, lagrange_quad9_jacobianOf_eq h9 hL sqrt elem hq',
      ← quad9_jacobianAt_eq h9 elem.node hq', Quad9JacobianCalculator.jacobianAt_of_lt hw _ _
        (by rw [h9k]; exact hq)]
  · exact Quad9JacobianCalculator.getJxW_of_ne (by rw [h9k]; exact he)

end Quad9

section Affine

variable {R : Type} [LinearOrderedField R] {qt : QuadratureType} {o : Nat} {rule : QRule R}

theorem lagrange_tri3_jacobianOf {cL : LagrangeJacobianCalculator R 2 2}
    (hL : LagrangeJacobianCalculator.new ⟨.TRI3, qt, o⟩ rule tri3ShapeDeriv = .ok cL)
    (sqrt : R → R) (elem : Elem R) {q : Nat} (hq : q < rule.points.length) :
    jacobianOf sqrt (cL.contravariant elem q) =
      .ok (Tri3JacobianCalculator.jacobian (elem.node 0) (elem.node 1) (elem.node 2)) := by
  rw [LagrangeJacobianCalculator.contravariant_of_new hL (show getNNodes .TRI3 = 3 from rfl)
    elem hq, jacobianOf_two]
  simp only [Matrix.of_apply, Fin.cast_eq_self, tri3_sum_shapeDeriv]
  rfl

theorem lagrange_tet4_jacobianOf {cL : LagrangeJacobianCalculator R 3 3}
    (hL : LagrangeJacobianCalculator.new ⟨.TET4, qt, o⟩ rule tet4ShapeDeriv = .ok cL)
    (sqrt : R → R) (elem : Elem R) {q : Nat} (hq : q < rule.points.length) :
    jacobianOf sqrt (cL.contravariant elem q) = .ok (Tet4JacobianCalculator.jacobian
      (elem.node 0) (elem.node 1) (elem.node 2) (elem.node 3)) := by
  rw [LagrangeJacobianCalculator.contravariant_of_new hL (show getNNodes .TET4 = 4 from rfl)
    elem hq, jacobianOf_three]
  simp only [Matrix.of_apply, Fin.cast_eq_self, tet4_sum_shapeDeriv]
  rfl

theorem tri3_getJxW_eq_lagrange {cL : LagrangeJacobianCalculator R 2 2}
    (hL : LagrangeJacobianCalculator.new ⟨.TRI3, qt, o⟩ rule tri3ShapeDeriv = .ok cL)
    (sqrt : R → R) (elem : Elem R) :
    (0 < rule.weights.length →
      (Tri3JacobianCalculator.new ⟨.TRI3, qt, o⟩ rule).getJxW elem = cL.getJxW sqrt elem) ∧
    ∀ v, (Tri3JacobianCalculator.new ⟨.TRI3, qt, o⟩ rule).getJxW elem = .ok v →
      cL.getJxW sqrt elem = .ok v := by
  rw [LagrangeJacobianCalculator.getJxW_of_new hL (by norm_num)]
  split_ifs with he
  · have hJ : scaleJxW (fun q => jacobianOf sqrt (cL.contravariant elem q)) 0 rule.weights =
        scaleJxW (fun _ => .ok _) 0 rule.weights :=
      scaleJxW_congr fun q hq =>
        lagrange_tri3_jacobianOf hL sqrt elem (by rw [rule.length_eq]; omega)
    rw [Tri3JacobianCalculator.getJxW_eq (Tri3JacobianCalculator.new_wf ⟨.TRI3, qt, o⟩ rule) he
      (by rw [he]; exact le_rfl), hJ]
    exact ⟨fun hQ => (scaleJxW_const _ 0 (List.ne_nil_of_length_pos hQ)).symm,
      fun _ => scaleJxW_const_of_ok⟩
  · rw [Tri3JacobianCalculator.getJxW_of_ne (by exact he)]
    exact ⟨fun _ => rfl, fun v hv => by cases hv⟩

theorem tet4_getJxW_eq_lagrange {cL : LagrangeJacobianCalculator R 3 3}
    (hL : LagrangeJacobianCalculator.new ⟨.TET4, qt, o⟩ rule tet4ShapeDeriv = .ok cL)
    (sqrt : R → R) (elem : Elem R) :
    (0 < rule.weights.length →
      (Tet4JacobianCalculator.new ⟨.TET4, qt, o⟩ rule).getJxW elem = cL.getJxW sqrt elem) ∧
    ∀ v, (Tet4JacobianCalculator.new ⟨.TET4, qt, o⟩ rule).getJxW elem = .ok v →
      cL.getJxW sqrt elem = .ok v := by
  rw [LagrangeJacobianCalculator.getJxW_of_new hL (by norm_num)]
  split_ifs with he
  · have hJ : scaleJxW (fun q => jacobianOf sqrt (cL.contravariant elem q)) 0 rule.weights =
        scaleJxW (fun _ => .ok _) 0 rule.weights :=
      scaleJxW_congr fun q hq =>
        lagrange_tet4_jacobianOf hL sqrt elem (by rw [rule.length_eq]; omega)
    rw [Tet4JacobianCalculator.getJxW_eq (Tet4JacobianCalculator.new_wf ⟨.TET4, qt, o⟩ rule) he
      (by rw [he]; exact le_rfl), hJ]
    exact ⟨fun hQ => (scaleJxW_const _ 0 (List.ne_nil_of_length_pos hQ)).symm,
      fun _ => scaleJxW_const_of_ok⟩
  · rw [Tet4JacobianCalculator.getJxW_of_ne (by exact he)]
    exact ⟨fun _ => rfl, fun v hv => by cases hv⟩

end Affine

/-! The three equivalences, in real arithmetic. -/

section Real

/-- The `QUAD9` sums are the determinant of the derivative of the biquadratic map. -/
theorem quad9Sums_eq_det_deriv (X : Nat → Point ℝ) (ξ η : ℝ) :
    let x := quad9Map fun n => X n
    quad9Sums X ξ η =
      !![deriv (fun t => x t η 0) ξ, deriv (fun t => x ξ t 0) η;
        deriv (fun t => x t η 1) ξ, deriv (fun t => x ξ t 1) η].det := by
  intro x
  rw [Matrix.det_fin_two_of, (hasDerivAt_quad9Map_xi ξ η 0 _).deriv,
    (hasDerivAt_quad9Map_xi ξ η 1 _).deriv, (hasDerivAt_quad9Map_eta ξ η 0 _).deriv,
    (hasDerivAt_quad9Map_eta ξ η 1 _).deriv]
  rfl

/-- **`Quad9` refines the generic path.** For every rule the `Quad9` constructor accepts,
point `q` is `(p_{q % n}, p_{q / n})`, the kernel's `J` there is the determinant of the
derivative of the biquadratic map through the element's nodes, the generic path computes
the same `J`, and the two calculators return the same `JxW` or reject alike. -/
theorem quad9_jacobian_eq_lagrange (qt : QuadratureType) (o : Nat) (rule : QRule ℝ)
    (c9 : Quad9JacobianCalculator ℝ) (cL : LagrangeJacobianCalculator ℝ 2 2)
    (h9 : Quad9JacobianCalculator.new ⟨.QUAD9, qt, o⟩ rule = .ok c9)
    (hL : LagrangeJacobianCalculator.new ⟨.QUAD9, qt, o⟩ rule quad9ShapeDeriv = .ok cL)
    (elem : Elem ℝ) :
    (∀ m, quad9Map (fun n => elem.node n) (quad9RefNode m 0) (quad9RefNode m 1) = elem.node m) ∧
    (∀ q < rule.points.length,
      let ξ := onedPoint rule.points (q % c9.nOnedQPoints)
      let η := onedPoint rule.points (q / c9.nOnedQPoints)
      let x := quad9Map fun n => elem.node n
      rule.points.getD q 0 = ![ξ, η, 0] ∧
      c9.jacobianAt (fun i j => Quad9JacobianCalculator.grid elem.node i j 0)
          (fun i j => Quad9JacobianCalculator.grid elem.node i j 1) q =
        .ok !![deriv (fun t => x t η 0) ξ, deriv (fun t => x ξ t 0) η;
          deriv (fun t => x t η 1) ξ, deriv (fun t => x ξ t 1) η].det ∧
      jacobianOf Real.sqrt (cL.contravariant elem q) =
        c9.jacobianAt (fun i j => Quad9JacobianCalculator.grid elem.node i j 0)
          (fun i j => Quad9JacobianCalculator.grid elem.node i j 1) q) ∧
    c9.getJxW elem = cL.getJxW Real.sqrt elem := by
  refine ⟨quad9Map_node _, fun q hq => ⟨?_, ?_, ?_⟩, quad9_getJxW_eq_lagrange h9 hL _ elem⟩
  · obtain ⟨hsq, hT, rfl⟩ := Quad9JacobianCalculator.new_eq_ok.mp h9
    exact hT.point_eq (by rwa [hsq])
  · rw [quad9_jacobianAt_eq h9 elem.node hq, ← quad9Sums_eq_det_deriv]
  · rw [quad9_jacobianAt_eq h9 elem.node hq, lagrange_quad9_jacobianOf_eq h9 hL _ elem hq]

/-- On the reference `QUAD9` under the one-point rule both paths return `JxW = [4]`. -/
theorem quad9_one_point_rule_eq_lagrange :
    ∃ (c9 : Quad9JacobianCalculator ℝ) (cL : LagrangeJacobianCalculator ℝ 2 2),
      Quad9JacobianCalculator.new ⟨.QUAD9, .QGAUSS, 1⟩ ⟨[0], [4], rfl⟩ = .ok c9 ∧
      LagrangeJacobianCalculator.new ⟨.QUAD9, .QGAUSS, 1⟩ ⟨[0], [4], rfl⟩ quad9ShapeDeriv =
        .ok cL ∧
      c9.getJxW quad9RefElem = .ok [4] ∧ cL.getJxW Real.sqrt quad9RefElem = .ok [4] := by
  obtain ⟨c9, h9⟩ := Quad9JacobianCalculator.new_one_point (R := ℝ) ⟨.QUAD9, .QGAUSS, 1⟩
  have h := Quad9JacobianCalculator.getJxW_quad9RefElem h9
  exact ⟨c9, _, h9, rfl, h, (quad9_jacobian_eq_lagrange _ _ _ _ _ h9 rfl _).2.2.symm.trans h⟩

/-- **`Quad4` refines the generic path.** The kernel's `J` at every reference point is the
determinant of the derivative of the bilinear map through the four nodes; on every rule it
is the generic path's `J` at every point, and the two calculators agree on every element. -/
theorem quad4_jacobian_eq_lagrange (qt : QuadratureType) (o : Nat) (rule : QRule ℝ)
    (cL : LagrangeJacobianCalculator ℝ 2 2)
    (hL : LagrangeJacobianCalculator.new ⟨.QUAD4, qt, o⟩ rule quad4ShapeDeriv = .ok cL) :
    (∀ (p : Fin 4 → Point ℝ) (ξ η : ℝ),
      (∀ m, quad4Map p (quad4RefNode m 0) (quad4RefNode m 1) = p m) ∧
      (Quad4Coefficients.of (p 0) (p 1) (p 2) (p 3)).jacobian ξ η =
        !![deriv (fun t => quad4Map p t η 0) ξ, deriv (fun t => quad4Map p ξ t 0) η;
          deriv (fun t => quad4Map p t η 1) ξ, deriv (fun t => quad4Map p ξ t 1) η].det) ∧
    (∀ (elem : Elem ℝ) (q : Nat), q < rule.points.length →
      jacobianOf Real.sqrt (cL.contravariant elem q) =
        .ok ((Quad4Coefficients.of (elem.node 0) (elem.node 1) (elem.node 2)
          (elem.node 3)).jacobian (rule.points.getD q 0 0) (rule.points.getD q 0 1))) ∧
    ∀ elem : Elem ℝ,
      (Quad4JacobianCalculator.new ⟨.QUAD4, qt, o⟩ rule).getJxW elem = cL.getJxW Real.sqrt elem := by
  refine ⟨fun p ξ η => ⟨quad4Map_node p, ?_⟩,
    fun elem q hq => lagrange_quad4_jacobianOf hL _ elem hq, quad4_getJxW_eq_lagrange hL _⟩
  have h := quad4_jacobian_eq p ![ξ, η, 0]
  simp only [Matrix.cons_val_zero, Matrix.cons_val_one, Matrix.head_cons] at h
  rw [h, Matrix.det_fin_two_of, (hasDerivAt_quad4Map_xi ξ η 0 p).deriv,
    (hasDerivAt_quad4Map_xi ξ η 1 p).deriv, (hasDerivAt_quad4Map_eta ξ η 0 p).deriv,
    (hasDerivAt_quad4Map_eta ξ η 1 p).deriv]

/-- On the reference `QUAD4` under the one-point rule both paths return `JxW = [4]`. -/
theorem quad4_one_point_rule_eq_lagrange :
    ∃ cL : LagrangeJacobianCalculator ℝ 2 2,
      LagrangeJacobianCalculator.new ⟨.QUAD4, .QGAUSS, 1⟩ ⟨[0], [4], rfl⟩ quad4ShapeDeriv =
        .ok cL ∧
      (Quad4JacobianCalculator.new ⟨.QUAD4, .QGAUSS, 1⟩ (⟨[0], [4], rfl⟩ : QRule ℝ)).getJxW
        quad4RefElem = .ok [4] ∧
      cL.getJxW Real.sqrt quad4RefElem = .ok [4] :=
  ⟨_, rfl, Quad4JacobianCalculator.getJxW_quad4RefElem _,
    ((quad4_jacobian_eq_lagrange _ _ _ _ rfl).2.2 _).symm.trans
      (Quad4JacobianCalculator.getJxW_quad4RefElem _)⟩

/-- **`Tri3` and `Tet4` against the generic path.** Each kernel's `J` is the determinant of
the linear part of the affine map through the element's vertices, which the generic path
computes at every point. On a rule with points the calculators agree on every element; on
any rule, what the kernel accepts the generic path accepts with the same `JxW`. -/
theorem affine_jacobian_eq_lagrange (qt : QuadratureType) (o : Nat) (triRule tetRule : QRule ℝ)
    (c2 : LagrangeJacobianCalculator ℝ 2 2) (c3 : LagrangeJacobianCalculator ℝ 3 3)
    (h2 : LagrangeJacobianCalculator.new ⟨.TRI3, qt, o⟩ triRule tri3ShapeDeriv = .ok c2)
    (h3 : LagrangeJacobianCalculator.new ⟨.TET4, qt, o⟩ tetRule tet4ShapeDeriv = .ok c3)
    (elem : Elem ℝ) :
    (∀ p0 p1 p2 : Point ℝ, Tri3JacobianCalculator.jacobian p0 p1 p2 =
      !![p1 0 - p0 0, p2 0 - p0 0; p1 1 - p0 1, p2 1 - p0 1].det) ∧
    (∀ p0 p1 p2 p3 : Point ℝ, Tet4JacobianCalculator.jacobian p0 p1 p2 p3 =
      (Matrix.of fun i j : Fin 3 => ![p1, p2, p3] j i - p0 i).det) ∧
    (∀ q < triRule.points.length, jacobianOf Real.sqrt (c2.contravariant elem q) =
      .ok (Tri3JacobianCalculator.jacobian (elem.node 0) (elem.node 1) (elem.node 2))) ∧
    (∀ q < tetRule.points.length, jacobianOf Real.sqrt (c3.contravariant elem q) =
      .ok (Tet4JacobianCalculator.jacobian (elem.node 0) (elem.node 1) (elem.node 2)
        (elem.node 3))) ∧
    (triRule.weights ≠ [] →
      (Tri3JacobianCalculator.new ⟨.TRI3, qt, o⟩ triRule).getJxW elem =
        c2.getJxW Real.sqrt elem) ∧
    (tetRule.weights ≠ [] →
      (Tet4JacobianCalculator.new ⟨.TET4, qt, o⟩ tetRule).getJxW elem =
        c3.getJxW Real.sqrt elem) ∧
    (∀ v, (Tri3JacobianCalculator.new ⟨.TRI3, qt, o⟩ triRule).getJxW elem = .ok v →
      c2.getJxW Real.sqrt elem = .ok v) ∧
    (∀ v, (Tet4JacobianCalculator.new ⟨.TET4, qt, o⟩ tetRule).getJxW elem = .ok v →
      c3.getJxW Real.sqrt elem = .ok v) :=
  ⟨tri3_jacobian_eq_det, tet4_jacobian_eq_det,
    fun _ hq => lagrange_tri3_jacobianOf h2 _ elem hq,
    fun _ hq => lagrange_tet4_jacobianOf h3 _ elem hq,
    fun h => (tri3_getJxW_eq_lagrange h2 _ elem).1 (List.length_pos.mpr h),
    fun h => (tet4_getJxW_eq_lagrange h3 _ elem).1 (List.length_pos.mpr h),
    (tri3_getJxW_eq_lagrange h2 _ elem).2, (tet4_getJxW_eq_lagrange h3 _ elem).2⟩

/-- On the reference triangle and tetrahedron under one-point rules, each kernel and the
generic path return the rule's weight. -/
theorem affine_one_point_rule_eq_lagrange :
    ∃ (c2 : LagrangeJacobianCalculator ℝ 2 2) (c3 : LagrangeJacobianCalculator ℝ 3 3),
      LagrangeJacobianCalculator.new ⟨.TRI3, .QGAUSS, 1⟩ ⟨[0], [1 / 2], rfl⟩ tri3ShapeDeriv =
        .ok c2 ∧
      LagrangeJacobianCalculator.new ⟨.TET4, .QGAUSS, 1⟩ ⟨[0], [1 / 6], rfl⟩ tet4ShapeDeriv =
        .ok c3 ∧
      (Tri3JacobianCalculator.new ⟨.TRI3, .QGAUSS, 1⟩ (⟨[0], [1 / 2], rfl⟩ : QRule ℝ)).getJxW
        tri3RefElem = .ok [1 / 2] ∧ c2.getJxW Real.sqrt tri3RefElem = .ok [1 / 2] ∧
      (Tet4JacobianCalculator.new ⟨.TET4, .QGAUSS, 1⟩ (⟨[0], [1 / 6], rfl⟩ : QRule ℝ)).getJxW
        tet4RefElem = .ok [1 / 6] ∧ c3.getJxW Real.sqrt tet4RefElem = .ok [1 / 6] := by
  have h2 := @Tri3JacobianCalculator.getJxW_tri3RefElem ℝ _ .QGAUSS 1
    (⟨[0], [1 / 2], rfl⟩ : QRule ℝ)
  have h3 := @Tet4JacobianCalculator.getJxW_tet4RefElem ℝ _ .QGAUSS 1
    (⟨[0], [1 / 6], rfl⟩ : QRule ℝ)
  have h := affine_jacobian_eq_lagrange .QGAUSS 1 ⟨[0], [1 / 2], rfl⟩ ⟨[0], [1 / 6], rfl⟩ _ _
    rfl rfl
  exact ⟨_, _, rfl, rfl, h2, (h tri3RefElem).2.2.2.2.2.2.1 _ h2, h3,
    (h tet4RefElem).2.2.2.2.2.2.2 _ h3⟩

end Real

end IBTK
