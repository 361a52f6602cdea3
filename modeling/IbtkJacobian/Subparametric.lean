import IbtkJacobian.Equivalence

/- A `QUAD9` element whose extra nodes sit where the bilinear map of its corners puts them:
   the edge midpoints at nodes 4-7 and the centroid at node 8 (`subparametricQuad9`).

   1. The `EDGE3` basis reproduces each `EDGE2` shape through its nodes
      (`edge3_interp_edge2Shape`), so the biquadratic map through those nine nodes is the
      bilinear map of the corners (`quad9Map_quad4Lift`).
   2. Equal maps have equal derivatives, so the `QUAD9` derivative sums on those nodes are
      the `QUAD4` ones (`quad9_lift_sums`), and the determinant `Quad9` forms is the `Quad4`
      kernel's `J` (`quad9Sums_of_lift`).
   3. Hence, for every rule the `Quad9` constructor accepts, the two calculators compute the
      same `J` at every point and return the same `JxW` or fail alike
      (`quad9_subparametric_eq_quad4`). -/

namespace IBTK

theorem edge3_interp_edge2Shape (k : Fin 2) (t : ℝ) :
    ∑ a, edge2Shape k (![-1, 1, 0] a) * edge3Shape a t = edge2Shape k t := by
  fin_cases k <;>
    simp only [Fin.sum_univ_three, edge2Shape, edge3Shape, Fin.zero_eta, Fin.mk_one,
      Fin.reduceFinMk, Matrix.cons_val_zero, Matrix.cons_val_one, Matrix.cons_val_two,
      Matrix.head_cons, Matrix.tail_cons] <;> ring

/-- The `QUAD9` interpolant of a product `f(ξ) g(η)` is the product of the `EDGE3`
interpolants of `f` and `g`. -/
theorem quad9_interp_tensor (f g : ℝ → ℝ) (ξ η : ℝ) :
    ∑ n, f (quad9RefNode n 0) * g (quad9RefNode n 1) * quad9Shape n ![ξ, η, 0] =
      (∑ a, f (![-1, 1, 0] a) * edge3Shape a ξ) *
        (∑ b, g (![-1, 1, 0] b) * edge3Shape b η) := by
  rw [Finset.sum_mul_sum, ← quad9_sum_tensor]
  refine Finset.sum_congr rfl fun n _ => ?_
  obtain ⟨h0, h1⟩ := quad9RefNode_eq n
  simp only [quad9Shape, Matrix.cons_val_zero, Matrix.cons_val_one, Matrix.head_cons, h0, h1]
  ring

/-- The biquadratic map through the images of the `QUAD9` reference nodes under the
bilinear map is the bilinear map. -/
theorem quad9Map_quad4Lift (p : Fin 4 → Point ℝ) :
    quad9Map (fun n => quad4Map p (quad9RefNode n 0) (quad9RefNode n 1)) = quad4Map p := by
  funext ξ η i
  simp only [quad9Map, quad4Map, Finset.sum_mul]
  rw [Finset.sum_comm]
  refine Finset.sum_congr rfl fun m _ => ?_
  have h := quad9_interp_tensor (edge2Shape (quad4I0 m)) (edge2Shape (quad4I1 m)) ξ η
  rw [edge3_interp_edge2Shape, edge3_interp_edge2Shape] at h
  simp only [quad4Shape, Matrix.cons_val_zero, Matrix.cons_val_one, Matrix.head_cons, ← h,
    Finset.mul_sum, mul_assoc]

theorem quad4Map_apply (p : Fin 4 → Point ℝ) (ξ η : ℝ) (i : Fin 3) :
    quad4Map p ξ η i = ((1 - ξ) * (1 - η) * p 0 i + (1 + ξ) * (1 - η) * p 1 i +
      (1 + ξ) * (1 + η) * p 2 i + (1 - ξ) * (1 + η) * p 3 i) / 4 := by
  simp only [quad4Map, quad4Shape, Fin.sum_univ_four, edge2Shape, quad4I0, quad4I1,
    Matrix.cons_val_zero, Matrix.cons_val_one, Matrix.cons_val_two, Matrix.cons_val_three,
    Matrix.head_cons, Matrix.tail_cons]
  ring

/-- On the lifted nodes the `QUAD9` derivative sums are the `QUAD4` ones: both are the
partial derivatives of the same map. -/
theorem quad9_lift_sums (p : Fin 4 → Point ℝ) (ξ η : ℝ) (c : Fin 3) :
    let X := fun n : Fin 9 => quad4Map p (quad9RefNode n 0) (quad9RefNode n 1)
    (∑ n, X n c * quad9ShapeDeriv n 0 ![ξ, η, 0]) =
        ∑ n, p n c * quad4ShapeDeriv n 0 ![ξ, η, 0] ∧
      (∑ n, X n c * quad9ShapeDeriv n 1 ![ξ, η, 0]) =
        ∑ n, p n c * quad4ShapeDeriv n 1 ![ξ, η, 0] := by
  intro X
  have h0 := hasDerivAt_quad9Map_xi ξ η c X
  have h1 := hasDerivAt_quad9Map_eta ξ η c X
  rw [quad9Map_quad4Lift] at h0 h1
  exact ⟨h0.unique (hasDerivAt_quad4Map_xi ξ η c p),
    h1.unique (hasDerivAt_quad4Map_eta ξ η c p)⟩

theorem quad9Sums_of_lift (p : Fin 4 → Point ℝ) {X : Nat → Point ℝ}
    (hX : ∀ n : Fin 9, X n = quad4Map p (quad9RefNode n 0) (quad9RefNode n 1)) (ξ η : ℝ) :
    quad9Sums X ξ η = (Quad4Coefficients.of (p 0) (p 1) (p 2) (p 3)).jacobian ξ η := by
  have h := quad4_jacobian_eq p ![ξ, η, 0]
  simp only [Matrix.cons_val_zero, Matrix.cons_val_one, Matrix.head_cons] at h
  obtain ⟨h00, h01⟩ := quad9_lift_sums p ξ η 0
  obtain ⟨h10, h11⟩ := quad9_lift_sums p ξ η 1
  simp only [quad9Sums, hX, h00, h01, h10, h11, h]

/-- The `QUAD9` element on the corners `p`: the edge midpoints at nodes 4-7 and the
centroid at node 8. -/
def subparametricQuad9 {R : Type} [LinearOrderedField R] (p : Fin 4 → Point R) : Elem R :=
  ⟨.QUAD9, [p 0, p 1, p 2, p 3, fun i => (p 0 i + p 1 i) / 2, fun i => (p 1 i + p 2 i) / 2,
    fun i => (p 2 i + p 3 i) / 2, fun i => (p 3 i + p 0 i) / 2,
    fun i => (p 0 i + p 1 i + p 2 i + p 3 i) / 4], rfl⟩

theorem subparametricQuad9_node (p : Fin 4 → Point ℝ) (n : Fin 9) :
    (subparametricQuad9 p).node n = quad4Map p (quad9RefNode n 0) (quad9RefNode n 1) := by
  funext i
  rw [quad4Map_apply]
  fin_cases n <;>
    simp only [quad9RefNode, subparametricQuad9, Elem.node, Fin.val_mk, List.getD_cons_succ,
      List.getD_cons_zero, Matrix.cons_val_succ', Matrix.cons_val_zero', Matrix.cons_val_zero,
      Matrix.cons_val_one, Matrix.head_cons] <;> ring

/-- **`Quad9` on a sub-parametric element is `Quad4`.** For every rule the `Quad9`
constructor accepts, `Quad9`'s `J` at every point of the element with midpoints and
centroid is the `Quad4` kernel's `J` on its corners, and the two calculators return the
same `JxW` or fail alike. -/
theorem quad9_subparametric_eq_quad4 (qt : QuadratureType) (o : Nat) (rule : QRule ℝ)
    (c9 : Quad9JacobianCalculator ℝ)
    (h9 : Quad9JacobianCalculator.new ⟨.QUAD9, qt, o⟩ rule = .ok c9) (p : Fin 4 → Point ℝ) :
    (∀ q < rule.points.length,
      c9.jacobianAt (fun i j => Quad9JacobianCalculator.grid (subparametricQuad9 p).node i j 0)
          (fun i j => Quad9JacobianCalculator.grid (subparametricQuad9 p).node i j 1) q =
        .ok ((Quad4Coefficients.of (p 0) (p 1) (p 2) (p 3)).jacobian (rule.points.getD q 0 0)
          (rule.points.getD q 0 1))) ∧
    c9.getJxW (subparametricQuad9 p) =
      (Quad4JacobianCalculator.new ⟨.QUAD4, qt, o⟩ rule).getJxW
        ⟨.QUAD4, [p 0, p 1, p 2, p 3], rfl⟩ := by
  have hw := Quad9JacobianCalculator.new_wf h9
  have h9k : c9.toJacobianCalculator = JacobianCalculator.new ⟨.QUAD9, qt, o⟩ rule := by
    obtain ⟨-, -, rfl⟩ := Quad9JacobianCalculator.new_eq_ok.mp h9; rfl
  have hJ : ∀ q < rule.points.length,
      c9.jacobianAt (fun i j => Quad9JacobianCalculator.grid (subparametricQuad9 p).node i j 0)
          (fun i j => Quad9JacobianCalculator.grid (subparametricQuad9 p).node i j 1) q =
        .ok ((Quad4Coefficients.of (p 0) (p 1) (p 2) (p 3)).jacobian (rule.points.getD q 0 0)
          (rule.points.getD q 0 1)) := fun q hq => by
    rw [quad9_jacobianAt_eq h9 _ hq, quad9Sums_of_lift p (subparametricQuad9_node p)]
    obtain ⟨hsq, hT, rfl⟩ := Quad9JacobianCalculator.new_eq_ok.mp h9
    rw [hT.point_eq (by rwa [hsq])]
    rfl
  refine ⟨hJ, ?_⟩
  rw [Quad9JacobianCalculator.getJxW_eq hw (by rw [h9k]; rfl) (by exact le_rfl),
    Quad4JacobianCalculator.getJxW_eq (Quad4JacobianCalculator.new_wf _ _) rfl (by exact le_rfl),
    show c9.quadWeights = rule.weights by rw [h9k]; rfl]
  refine scaleJxW_congr fun q hq => ?_
  rw [Nat.zero_add, ← Quad9JacobianCalculator.jacobianAt_of_lt hw _ _ (by rw [h9k]; exact hq),
    hJ q (by rw [rule.length_eq]; omega)]
  rfl

/-- The unit square as a sub-parametric `QUAD9` element under the one-point rule. -/
theorem quad9_one_point_rule_subparametric :
    ∃ c9 : Quad9JacobianCalculator ℝ,
      Quad9JacobianCalculator.new ⟨.QUAD9, .QGAUSS, 1⟩ ⟨[0], [4], rfl⟩ = .ok c9 ∧
      c9.getJxW (subparametricQuad9 ![![0, 0, 0], ![1, 0, 0], ![1, 1, 0], ![0, 1, 0]]) =
        (Quad4JacobianCalculator.new ⟨.QUAD4, .QGAUSS, 1⟩ ⟨[0], [4], rfl⟩).getJxW
          ⟨.QUAD4, [![0, 0, 0], ![1, 0, 0], ![1, 1, 0], ![0, 1, 0]], rfl⟩ := by
  obtain ⟨c9, h9⟩ := Quad9JacobianCalculator.new_one_point (R := ℝ) ⟨.QUAD9, .QGAUSS, 1⟩
  exact ⟨c9, h9, (quad9_subparametric_eq_quad4 _ _ _ _ h9 _).2⟩

end IBTK
