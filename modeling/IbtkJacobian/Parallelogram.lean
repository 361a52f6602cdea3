import IbtkJacobian.Covariance

/- The quadrilateral kernels on parallelograms. A parallelogram is the image of libMesh's
   reference square under an affine map `x ↦ A x + b` (`quad4RefElem`, `quad9RefElem`,
   moved by `Elem.affine`), and on it both kernels compute `J = det A` at every point: on
   the reference elements their `J` is `1` (`quad4RefElem_jacobian`,
   `jacobian_quad9RefElem`), and affine covariance multiplies it by `det A`. So `get_JxW`
   returns `det A · w` or fails its `J > 0` assertion, whatever the rule
   (`parallelogram_jxw_eq_det`). -/

namespace IBTK

variable {R : Type} [LinearOrderedField R]

theorem quad4_parallelogram_jacobian (A : Matrix (Fin 2) (Fin 2) R) (b : Fin 2 → R) (x y : R) :
    (Quad4Coefficients.of ((quad4RefElem.affine A b).node 0) ((quad4RefElem.affine A b).node 1)
      ((quad4RefElem.affine A b).node 2) ((quad4RefElem.affine A b).node 3)).jacobian x y =
      A.det := by
  have hn : ∀ n < 4, n < (quad4RefElem (R := R)).nodes.length := fun _ h => h
  rw [Elem.node_affine A b _ (hn 0 (by norm_num)), Elem.node_affine A b _ (hn 1 (by norm_num)),
    Elem.node_affine A b _ (hn 2 (by norm_num)), Elem.node_affine A b _ (hn 3 (by norm_num)),
    quad4_jacobian_affine A b rfl, quad4RefElem_jacobian, mul_one]

variable {qt : QuadratureType} {o : Nat} {rule : QRule R} {c9 : Quad9JacobianCalculator R}

theorem quad9_parallelogram_jacobianAt
    (h9 : Quad9JacobianCalculator.new ⟨.QUAD9, qt, o⟩ rule = .ok c9)
    (A : Matrix (Fin 2) (Fin 2) R) (b : Fin 2 → R) {q : Nat} (hq : q < rule.points.length) :
    c9.jacobianAt (fun i j => Quad9JacobianCalculator.grid (quad9RefElem.affine A b).node i j 0)
      (fun i j => Quad9JacobianCalculator.grid (quad9RefElem.affine A b).node i j 1) q =
      .ok A.det := by
  rw [quad9_jacobianAt_affine h9 A b rfl hq, Quad9JacobianCalculator.jacobianAt_of_new h9 _ _ hq,
    jacobian_quad9RefElem, map_ok, mul_one]

/-- **Both quadrilateral kernels are exact on parallelograms.** On the image of the
reference square under `x ↦ A x + b`, the `Quad4` kernel's `J` is `det A` at every
`(x, y)`, and `Quad9`'s is `det A` at every point of every rule its constructor accepts;
so each returns `det A · w` when `det A > 0` (or the rule is empty), and otherwise fails
its `J > 0` assertion. -/
theorem parallelogram_jxw_eq_det (qt : QuadratureType) (o : Nat) (rule : QRule R)
    (c9 : Quad9JacobianCalculator R)
    (h9 : Quad9JacobianCalculator.new ⟨.QUAD9, qt, o⟩ rule = .ok c9)
    (A : Matrix (Fin 2) (Fin 2) R) (b : Fin 2 → R) :
    (∀ x y, (Quad4Coefficients.of ((quad4RefElem.affine A b).node 0)
      ((quad4RefElem.affine A b).node 1) ((quad4RefElem.affine A b).node 2)
      ((quad4RefElem.affine A b).node 3)).jacobian x y = A.det) ∧
    (∀ q < rule.points.length,
      c9.jacobianAt (fun i j => Quad9JacobianCalculator.grid (quad9RefElem.affine A b).node i j 0)
        (fun i j => Quad9JacobianCalculator.grid (quad9RefElem.affine A b).node i j 1) q =
        .ok A.det) ∧
    (Quad4JacobianCalculator.new ⟨.QUAD4, qt, o⟩ rule).getJxW (quad4RefElem.affine A b) =
      (if 0 < A.det ∨ rule.weights = [] then .ok (rule.weights.map (· * A.det))
        else .error .nonPositiveJacobian) ∧
    c9.getJxW (quad9RefElem.affine A b) =
      (if 0 < A.det ∨ rule.weights = [] then .ok (rule.weights.map (· * A.det))
        else .error .nonPositiveJacobian) := by
  have hw := Quad9JacobianCalculator.new_wf h9
  have h9k : c9.toJacobianCalculator = JacobianCalculator.new ⟨.QUAD9, qt, o⟩ rule := by
    obtain ⟨-, -, rfl⟩ := Quad9JacobianCalculator.new_eq_ok.mp h9; rfl
  refine ⟨quad4_parallelogram_jacobian A b, fun q => quad9_parallelogram_jacobianAt h9 A b, ?_, ?_⟩
  · rw [Quad4JacobianCalculator.getJxW_eq (Quad4JacobianCalculator.new_wf _ _) rfl
      (by exact le_rfl)]
    simp only [quad4_parallelogram_jacobian]
    exact scaleJxW_const_zero _ _
  · rw [Quad9JacobianCalculator.getJxW_eq hw (by rw [h9k]; rfl) (by exact le_rfl),
      show c9.quadWeights = rule.weights by rw [h9k]; rfl, ← scaleJxW_const_zero]
    refine scaleJxW_congr fun q hq => ?_
    rw [Nat.zero_add, ← Quad9JacobianCalculator.jacobianAt_of_lt hw _ _ (by rw [h9k]; exact hq),
      quad9_parallelogram_jacobianAt h9 A b (by rw [rule.length_eq]; omega)]

/-- The one-point rule on the parallelogram with `A = [[2, 1], [0, 3]]`: `JxW = 4 · 6`. -/
theorem parallelogram_one_point_rule :
    ∃ c9 : Quad9JacobianCalculator ℚ,
      Quad9JacobianCalculator.new ⟨.QUAD9, .QGAUSS, 1⟩ ⟨[0], [4], rfl⟩ = .ok c9 ∧
      c9.getJxW (quad9RefElem.affine (Matrix.of ![![2, 1], ![0, 3]]) 0) = .ok [24] := by
  obtain ⟨c9, h9⟩ := Quad9JacobianCalculator.new_one_point (R := ℚ) ⟨.QUAD9, .QGAUSS, 1⟩
  refine ⟨c9, h9, ?_⟩
  rw [(parallelogram_jxw_eq_det .QGAUSS 1 _ c9 h9 _ 0).2.2.2]
  norm_num [Matrix.det_fin_two]

end IBTK
