import IbtkJacobian.Reference

/- The maps a quadrilateral element defines, `ξ ↦ Σ_n N_n(ξ) x_n`: bilinear for `QUAD4`
   (`quad4Map`), biquadratic for `QUAD9` (`quad9Map`). Each sends libMesh's reference nodes
   to the element's nodes (`quad4Map_node`, `quad9Map_node`), and libMesh's
   `shape_deriv` tables are its partial derivatives (`hasDerivAt_quad4Map_xi`, ...):
   the contravariant matrix the generic path forms is the derivative of the map. -/

namespace IBTK

/-- The bilinear map of a quadrilateral with nodes `p`. -/
def quad4Map {R : Type} [LinearOrderedField R] (p : Fin 4 → Point R) (ξ η : R) (i : Fin 3) : R :=
  ∑ n, p n i * quad4Shape n ![ξ, η, 0]

/-- The biquadratic map of a nine-node quadrilateral with nodes `p`. -/
def quad9Map {R : Type} [LinearOrderedField R] (p : Fin 9 → Point R) (ξ η : R) (i : Fin 3) : R :=
  ∑ n, p n i * quad9Shape n ![ξ, η, 0]

/-- libMesh's `QUAD4` reference nodes. -/
def quad4RefNode : Fin 4 → Fin 2 → ℝ := ![![-1, -1], ![1, -1], ![1, 1], ![-1, 1]]

/-- libMesh's `QUAD9` reference nodes. -/
def quad9RefNode : Fin 9 → Fin 2 → ℝ :=
  ![![-1, -1], ![1, -1], ![1, 1], ![-1, 1], ![0, -1], ![1, 0], ![0, 1], ![-1, 0], ![0, 0]]

/-! The bases are nodal, `N_n(x_m) = δ_nm`, so each map sends the reference nodes to the
element's nodes. -/

theorem edge2Shape_node (i k : Fin 2) :
    edge2Shape i (![-1, 1] k : ℝ) = if i = k then 1 else 0 := by
  fin_cases i <;> fin_cases k <;> norm_num [edge2Shape, Fin.ext_iff]

theorem edge3Shape_node (i k : Fin 3) :
    edge3Shape i (![-1, 1, 0] k : ℝ) = if i = k then 1 else 0 := by
  fin_cases i <;> fin_cases k <;> simp [edge3Shape, Fin.ext_iff] <;> norm_num

theorem quad4RefNode_eq (m : Fin 4) :
    quad4RefNode m 0 = ![-1, 1] (quad4I0 m) ∧ quad4RefNode m 1 = ![-1, 1] (quad4I1 m) := by
  fin_cases m <;> exact ⟨rfl, rfl⟩

theorem quad9RefNode_eq (m : Fin 9) :
    quad9RefNode m 0 = ![-1, 1, 0] (quad9I0 m) ∧ quad9RefNode m 1 = ![-1, 1, 0] (quad9I1 m) := by
  fin_cases m <;> exact ⟨rfl, rfl⟩

theorem quad4Shape_refNode (n m : Fin 4) :
    quad4Shape n ![quad4RefNode m 0, quad4RefNode m 1, 0] = if n = m then 1 else 0 := by
  have hI : (quad4I0 n = quad4I0 m ∧ quad4I1 n = quad4I1 m) ↔ n = m := by revert n m; decide
  obtain ⟨h0, h1⟩ := quad4RefNode_eq m
  simp only [quad4Shape, Matrix.cons_val_zero, Matrix.cons_val_one, Matrix.head_cons, h0, h1,
    edge2Shape_node, ite_zero_mul_ite_zero, mul_one, hI]

theorem quad9Shape_refNode (n m : Fin 9) :
    quad9Shape n ![quad9RefNode m 0, quad9RefNode m 1, 0] = if n = m then 1 else 0 := by
  have hI : (quad9I0 n = quad9I0 m ∧ quad9I1 n = quad9I1 m) ↔ n = m := by revert n m; decide
  obtain ⟨h0, h1⟩ := quad9RefNode_eq m
  simp only [quad9Shape, Matrix.cons_val_zero, Matrix.cons_val_one, Matrix.head_cons, h0, h1,
    edge3Shape_node, ite_zero_mul_ite_zero, mul_one, hI]

theorem quad4Map_node (p : Fin 4 → Point ℝ) (m : Fin 4) :
    quad4Map p (quad4RefNode m 0) (quad4RefNode m 1) = p m := by
  funext i
  simp only [quad4Map, quad4Shape_refNode, mul_ite, mul_one, mul_zero, Finset.sum_ite_eq',
    Finset.mem_univ, if_true]

theorem quad9Map_node (p : Fin 9 → Point ℝ) (m : Fin 9) :
    quad9Map p (quad9RefNode m 0) (quad9RefNode m 1) = p m := by
  funext i
  simp only [quad9Map, quad9Shape_refNode, mul_ite, mul_one, mul_zero, Finset.sum_ite_eq',
    Finset.mem_univ, if_true]

theorem hasDerivAt_edge2Shape (i : Fin 2) (t : ℝ) :
    HasDerivAt (edge2Shape i) (edge2ShapeDeriv i t) t := by
  fin_cases i
  · convert ((hasDerivAt_id t).const_sub (1 : ℝ)).const_mul (0.5 : ℝ) using 1
    simp [edge2ShapeDeriv]
  · convert ((hasDerivAt_id t).const_add (1 : ℝ)).const_mul (0.5 : ℝ) using 1
    simp [edge2ShapeDeriv]

theorem hasDerivAt_edge3Shape (i : Fin 3) (t : ℝ) :
    HasDerivAt (edge3Shape i) (edge3ShapeDeriv i t) t := by
  fin_cases i
  · convert ((hasDerivAt_id t).const_mul (0.5 : ℝ)).mul ((hasDerivAt_id t).sub_const (1 : ℝ))
      using 1
    simp only [edge3ShapeDeriv, Fin.zero_eta, Matrix.cons_val_zero, id]; ring
  · convert ((hasDerivAt_id t).const_mul (0.5 : ℝ)).mul ((hasDerivAt_id t).add_const (1 : ℝ))
      using 1
    simp only [edge3ShapeDeriv, Fin.mk_one, Matrix.cons_val_one, Matrix.head_cons, id]; ring
  · convert ((hasDerivAt_id t).mul (hasDerivAt_id t)).const_sub (1 : ℝ) using 1
    simp only [edge3ShapeDeriv, Fin.reduceFinMk, Matrix.cons_val_two, Matrix.tail_cons,
      Matrix.head_cons, id]; ring

variable (ξ η : ℝ) (i : Fin 3)

theorem hasDerivAt_quad4Map_xi (p : Fin 4 → Point ℝ) :
    HasDerivAt (fun t => quad4Map p t η i) (∑ n, p n i * quad4ShapeDeriv n 0 ![ξ, η, 0]) ξ :=
  HasDerivAt.sum fun n _ =>
    ((hasDerivAt_edge2Shape (quad4I0 n) ξ).mul_const (edge2Shape (quad4I1 n) η)).const_mul (p n i)

theorem hasDerivAt_quad4Map_eta (p : Fin 4 → Point ℝ) :
    HasDerivAt (fun t => quad4Map p ξ t i) (∑ n, p n i * quad4ShapeDeriv n 1 ![ξ, η, 0]) η :=
  HasDerivAt.sum fun n _ =>
    ((hasDerivAt_edge2Shape (quad4I1 n) η).const_mul (edge2Shape (quad4I0 n) ξ)).const_mul (p n i)

theorem hasDerivAt_quad9Map_xi (p : Fin 9 → Point ℝ) :
    HasDerivAt (fun t => quad9Map p t η i) (∑ n, p n i * quad9ShapeDeriv n 0 ![ξ, η, 0]) ξ :=
  HasDerivAt.sum fun n _ =>
    ((hasDerivAt_edge3Shape (quad9I0 n) ξ).mul_const (edge3Shape (quad9I1 n) η)).const_mul (p n i)

theorem hasDerivAt_quad9Map_eta (p : Fin 9 → Point ℝ) :
    HasDerivAt (fun t => quad9Map p ξ t i) (∑ n, p n i * quad9ShapeDeriv n 1 ![ξ, η, 0]) η :=
  HasDerivAt.sum fun n _ =>
    ((hasDerivAt_edge3Shape (quad9I1 n) η).const_mul (edge3Shape (quad9I0 n) ξ)).const_mul (p n i)

end IBTK
