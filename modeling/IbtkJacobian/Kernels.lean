import IbtkJacobian.Base

/- The three closed-form calculators: `Tri3JacobianCalculator` and
   `Tet4JacobianCalculator`, whose Jacobian is constant over the element and is asserted
   positive once, and `Quad4JacobianCalculator`, whose Jacobian is computed at every
   quadrature point from six per-element coefficients. Each is the base calculator with
   its own `get_JxW`, and each `get_JxW` has a spec lemma (`getJxW_eq`) for an element
   of the key's type with at least the nodes it reads. On libMesh's reference elements
   every rule's weights come back unchanged (`getJxW_tri3RefElem`, `getJxW_quad4RefElem`,
   `getJxW_tet4RefElem`).

   What a `Quad4` calculator integrates: the kernel's `J(x, y)` is affine in the reference
   point, since the `xy` terms of `Jac_00 · Jac_11` and `Jac_01 · Jac_10` cancel
   (`Quad4Coefficients.jacobian_eq_affine`), and `4 J(0, 0)` is the shoelace area of the
   quadrilateral (`jacobian_zero_eq_area`). So a rule on `[-1, 1]²` that integrates affine
   functions exactly sums the returned `JxW` to the area (`quad4_jxw_sum_eq_area`). -/

namespace IBTK

variable {R : Type} [LinearOrderedField R]

/-- `Tri3JacobianCalculator`. -/
structure Tri3JacobianCalculator (R : Type) extends JacobianCalculator R

/-- `Quad4JacobianCalculator`. -/
structure Quad4JacobianCalculator (R : Type) extends JacobianCalculator R

/-- `Tet4JacobianCalculator`. -/
structure Tet4JacobianCalculator (R : Type) extends JacobianCalculator R

/-- `Tri3JacobianCalculator(quad_key)`, the base constructor. -/
def Tri3JacobianCalculator.new (quadKey : KeyType) (rule : QRule R) : Tri3JacobianCalculator R :=
  ⟨JacobianCalculator.new quadKey rule⟩

/-- `Quad4JacobianCalculator(quad_key)`, the base constructor. -/
def Quad4JacobianCalculator.new (quadKey : KeyType) (rule : QRule R) :
    Quad4JacobianCalculator R :=
  ⟨JacobianCalculator.new quadKey rule⟩

/-- `Tet4JacobianCalculator(quad_key)`, the base constructor. -/
def Tet4JacobianCalculator.new (quadKey : KeyType) (rule : QRule R) : Tet4JacobianCalculator R :=
  ⟨JacobianCalculator.new quadKey rule⟩

theorem Tri3JacobianCalculator.new_wf (quadKey : KeyType) (rule : QRule R) :
    (Tri3JacobianCalculator.new quadKey rule).WF :=
  JacobianCalculator.new_wf quadKey rule

theorem Quad4JacobianCalculator.new_wf (quadKey : KeyType) (rule : QRule R) :
    (Quad4JacobianCalculator.new quadKey rule).WF :=
  JacobianCalculator.new_wf quadKey rule

theorem Tet4JacobianCalculator.new_wf (quadKey : KeyType) (rule : QRule R) :
    (Tet4JacobianCalculator.new quadKey rule).WF :=
  JacobianCalculator.new_wf quadKey rule

namespace Tri3JacobianCalculator

/-- The `J` of `get_JxW`, from the element's first three nodes. -/
def jacobian (p0 p1 p2 : Point R) : R :=
  let Jac_00 := p1 0 - p0 0
  let Jac_01 := p2 0 - p0 0
  let Jac_10 := p1 1 - p0 1
  let Jac_11 := p2 1 - p0 1
  Jac_00 * Jac_11 - Jac_01 * Jac_10

/-- `Tri3JacobianCalculator::get_JxW(elem)`. -/
def getJxW (c : Tri3JacobianCalculator R) (elem : Elem R) : Except JacobianError (List R) := do
  let JxW ← c.initJxW elem
  let p0 ← elem.point 0
  let p1 ← elem.point 1
  let p2 ← elem.point 2
  let J := jacobian p0 p1 p2
  if 0 < J then .ok (JxW.map (· * J)) else .error .nonPositiveJacobian

end Tri3JacobianCalculator

/-- The six per-element constants of `Quad4JacobianCalculator::get_JxW`. -/
structure Quad4Coefficients (R : Type) where
  a_1 : R
  b_1 : R
  c_1 : R
  a_2 : R
  b_2 : R
  c_2 : R

/-- The constants from the element's first four nodes. -/
def Quad4Coefficients.of (p0 p1 p2 p3 : Point R) : Quad4Coefficients R where
  a_1 := 0.25 * (-p0 0 + p1 0 + p2 0 - p3 0)
  b_1 := 0.25 * (-p0 0 - p1 0 + p2 0 + p3 0)
  c_1 := 0.25 * (p0 0 - p1 0 + p2 0 - p3 0)
  a_2 := 0.25 * (-p0 1 + p1 1 + p2 1 - p3 1)
  b_2 := 0.25 * (-p0 1 - p1 1 + p2 1 + p3 1)
  c_2 := 0.25 * (p0 1 - p1 1 + p2 1 - p3 1)

/-- The `J` of `get_JxW` at the reference point `(x, y)`. -/
def Quad4Coefficients.jacobian (k : Quad4Coefficients R) (x y : R) : R :=
  let Jac_00 := k.a_1 + k.c_1 * y
  let Jac_01 := k.b_1 + k.c_1 * x
  let Jac_10 := k.a_2 + k.c_2 * y
  let Jac_11 := k.b_2 + k.c_2 * x
  Jac_00 * Jac_11 - Jac_01 * Jac_10

namespace Quad4JacobianCalculator

/-- `Quad4JacobianCalculator::get_JxW(elem)`. -/
def getJxW (c : Quad4JacobianCalculator R) (elem : Elem R) : Except JacobianError (List R) := do
  let JxW ← c.initJxW elem
  let p0 ← elem.point 0
  let p1 ← elem.point 1
  let p2 ← elem.point 2
  let p3 ← elem.point 3
  let k := Quad4Coefficients.of p0 p1 p2 p3
  scaleJxW (fun i => do
    let p ← getChecked c.quadPoints i
    .ok (k.jacobian (p 0) (p 1))) 0 JxW

end Quad4JacobianCalculator

namespace Tet4JacobianCalculator

/-- The `J` of `get_JxW`, from the element's first four nodes: the cofactor expansion of
the edge matrix along its first column. -/
def jacobian (p0 p1 p2 p3 : Point R) : R :=
  let Jac_00 := p1 0 - p0 0
  let Jac_01 := p2 0 - p0 0
  let Jac_02 := p3 0 - p0 0
  let Jac_10 := p1 1 - p0 1
  let Jac_11 := p2 1 - p0 1
  let Jac_12 := p3 1 - p0 1
  let Jac_20 := p1 2 - p0 2
  let Jac_21 := p2 2 - p0 2
  let Jac_22 := p3 2 - p0 2
  Jac_00 * (Jac_11 * Jac_22 - Jac_12 * Jac_21) - Jac_10 * (Jac_01 * Jac_22 - Jac_02 * Jac_21) +
    Jac_20 * (Jac_01 * Jac_12 - Jac_02 * Jac_11)

/-- `Tet4JacobianCalculator::get_JxW(elem)`. -/
def getJxW (c : Tet4JacobianCalculator R) (elem : Elem R) : Except JacobianError (List R) := do
  let JxW ← c.initJxW elem
  let p0 ← elem.point 0
  let p1 ← elem.point 1
  let p2 ← elem.point 2
  let p3 ← elem.point 3
  let J := jacobian p0 p1 p2 p3
  if 0 < J then .ok (JxW.map (· * J)) else .error .nonPositiveJacobian

end Tet4JacobianCalculator

/-! The three `get_JxW`, evaluated on an element of the key's type. -/

variable {elem : Elem R}

theorem Tri3JacobianCalculator.getJxW_eq {c : Tri3JacobianCalculator R}
    (hc : c.WF) (he : elem.type = c.quadKey.elemType) (hn : 3 ≤ getNNodes elem.type) :
    c.getJxW elem =
      let J := jacobian (elem.node 0) (elem.node 1) (elem.node 2)
      if 0 < J then .ok (c.quadWeights.map (· * J)) else .error .nonPositiveJacobian := by
  rw [getJxW, JacobianCalculator.initJxW_of_length hc.length_JxW, if_pos he, ok_bind,
    elem.point_eq_node (by omega), ok_bind, elem.point_eq_node (by omega), ok_bind,
    elem.point_eq_node (by omega), ok_bind]

theorem Tet4JacobianCalculator.getJxW_eq {c : Tet4JacobianCalculator R}
    (hc : c.WF) (he : elem.type = c.quadKey.elemType) (hn : 4 ≤ getNNodes elem.type) :
    c.getJxW elem =
      let J := jacobian (elem.node 0) (elem.node 1) (elem.node 2) (elem.node 3)
      if 0 < J then .ok (c.quadWeights.map (· * J)) else .error .nonPositiveJacobian := by
  rw [getJxW, JacobianCalculator.initJxW_of_length hc.length_JxW, if_pos he, ok_bind,
    elem.point_eq_node (by omega), ok_bind, elem.point_eq_node (by omega), ok_bind,
    elem.point_eq_node (by omega), ok_bind, elem.point_eq_node (by omega), ok_bind]

theorem Tri3JacobianCalculator.getJxW_of_ne {c : Tri3JacobianCalculator R}
    (he : elem.type ≠ c.quadKey.elemType) : c.getJxW elem = .error .elemTypeMismatch := by
  rw [getJxW, JacobianCalculator.initJxW_of_ne he, error_bind]

theorem Quad4JacobianCalculator.getJxW_of_ne {c : Quad4JacobianCalculator R}
    (he : elem.type ≠ c.quadKey.elemType) : c.getJxW elem = .error .elemTypeMismatch := by
  rw [getJxW, JacobianCalculator.initJxW_of_ne he, error_bind]

theorem Tet4JacobianCalculator.getJxW_of_ne {c : Tet4JacobianCalculator R}
    (he : elem.type ≠ c.quadKey.elemType) : c.getJxW elem = .error .elemTypeMismatch := by
  rw [getJxW, JacobianCalculator.initJxW_of_ne he, error_bind]

theorem Quad4JacobianCalculator.getJxW_eq {c : Quad4JacobianCalculator R}
    (hc : c.WF) (he : elem.type = c.quadKey.elemType) (hn : 4 ≤ getNNodes elem.type) :
    c.getJxW elem =
      let k := Quad4Coefficients.of (elem.node 0) (elem.node 1) (elem.node 2) (elem.node 3)
      scaleJxW (fun i => .ok (k.jacobian (c.quadPoints.getD i 0 0) (c.quadPoints.getD i 0 1)))
        0 c.quadWeights := by
  rw [getJxW, JacobianCalculator.initJxW_of_length hc.length_JxW, if_pos he, ok_bind,
    elem.point_eq_node (by omega), ok_bind, elem.point_eq_node (by omega), ok_bind,
    elem.point_eq_node (by omega), ok_bind, elem.point_eq_node (by omega), ok_bind]
  refine scaleJxW_congr fun i hi => ?_
  have hp : i < c.quadPoints.length := by rw [hc.length_quadPoints]; omega
  simp [getChecked_of_lt hp, List.getElem?_eq_getElem hp]

/-! The reference elements. -/

/-- libMesh's reference `TRI3`. -/
def tri3RefElem : Elem R := ⟨.TRI3, [![0, 0, 0], ![1, 0, 0], ![0, 1, 0]], rfl⟩

/-- libMesh's reference `QUAD4`, `[-1, 1]²` in the plane `z = 0`. -/
def quad4RefElem : Elem R := ⟨.QUAD4, [![-1, -1, 0], ![1, -1, 0], ![1, 1, 0], ![-1, 1, 0]], rfl⟩

/-- libMesh's reference `TET4`. -/
def tet4RefElem : Elem R := ⟨.TET4, [![0, 0, 0], ![1, 0, 0], ![0, 1, 0], ![0, 0, 1]], rfl⟩

theorem quad4RefElem_jacobian (x y : R) :
    (Quad4Coefficients.of (quad4RefElem.node 0) (quad4RefElem.node 1) (quad4RefElem.node 2)
      (quad4RefElem.node 3)).jacobian x y = (1 : R) := by
  norm_num [Quad4Coefficients.of, Quad4Coefficients.jacobian, quad4RefElem, Elem.node]

section RefElem

variable {qt : QuadratureType} {o : Nat} (rule : QRule R)

theorem Tri3JacobianCalculator.getJxW_tri3RefElem :
    (Tri3JacobianCalculator.new ⟨.TRI3, qt, o⟩ rule).getJxW tri3RefElem = .ok rule.weights := by
  rw [getJxW_eq (new_wf _ _) rfl (by exact le_rfl)]
  norm_num [jacobian, tri3RefElem, Elem.node, Tri3JacobianCalculator.new]

theorem Tet4JacobianCalculator.getJxW_tet4RefElem :
    (Tet4JacobianCalculator.new ⟨.TET4, qt, o⟩ rule).getJxW tet4RefElem = .ok rule.weights := by
  rw [getJxW_eq (new_wf _ _) rfl (by exact le_rfl)]
  norm_num [jacobian, tet4RefElem, Elem.node, Tet4JacobianCalculator.new]

theorem Quad4JacobianCalculator.getJxW_quad4RefElem :
    (Quad4JacobianCalculator.new ⟨.QUAD4, qt, o⟩ rule).getJxW quad4RefElem = .ok rule.weights := by
  rw [getJxW_eq (new_wf _ _) rfl (by exact le_rfl)]
  simp only [quad4RefElem_jacobian]
  rw [scaleJxW_const_zero, if_pos (.inl one_pos)]
  simp [Quad4JacobianCalculator.new]

end RefElem

/-! What a `Quad4` calculator integrates. -/

/-- The shoelace area of the quadrilateral `p0 p1 p2 p3`:
`½[(x2 − x0)(y3 − y1) − (x3 − x1)(y2 − y0)]`. -/
def quad4Area (p0 p1 p2 p3 : Point R) : R :=
  0.5 * ((p2 0 - p0 0) * (p3 1 - p1 1) - (p3 0 - p1 0) * (p2 1 - p0 1))

theorem Quad4Coefficients.jacobian_eq_affine (k : Quad4Coefficients R) (x y : R) :
    k.jacobian x y = k.jacobian 0 0 + (k.a_1 * k.c_2 - k.c_1 * k.a_2) * x +
      (k.c_1 * k.b_2 - k.b_1 * k.c_2) * y := by
  simp only [Quad4Coefficients.jacobian]
  ring

theorem jacobian_zero_eq_area (p0 p1 p2 p3 : Point R) :
    4 * (Quad4Coefficients.of p0 p1 p2 p3).jacobian 0 0 = quad4Area p0 p1 p2 p3 := by
  simp only [Quad4Coefficients.jacobian, Quad4Coefficients.of, quad4Area]
  ring

theorem sum_mapIdx_affine {f : R → R → R} {α β γ : R} (hf : ∀ x y, f x y = α + β * x + γ * y) :
    ∀ (ws : List R) (pts : List (Point R)), ws.length = pts.length →
      (ws.mapIdx fun q w => w * f (pts.getD q 0 0) (pts.getD q 0 1)).sum =
        α * ws.sum + β * (List.zipWith (fun w (p : Point R) => w * p 0) ws pts).sum +
          γ * (List.zipWith (fun w (p : Point R) => w * p 1) ws pts).sum
  | [], [], _ => by simp
  | w :: ws, p :: ps, h => by
    rw [List.mapIdx_cons, List.sum_cons]
    simp only [List.getD_cons_succ, List.getD_cons_zero]
    rw [sum_mapIdx_affine hf ws ps (by simpa using h), hf]
    simp only [List.sum_cons, List.zipWith_cons_cons]
    ring

/-- **The `Quad4` calculator integrates the area.** For a rule with `Σ w = 4` and vanishing
first moments, whatever `JxW` the calculator returns sums to the shoelace area of the
element's first four nodes. -/
theorem quad4_jxw_sum_eq_area (qt : QuadratureType) (o : Nat) (rule : QRule R) (elem : Elem R)
    (v : List R) (hw : rule.weights.sum = 4)
    (hx : (List.zipWith (fun w (p : Point R) => w * p 0) rule.weights rule.points).sum = 0)
    (hy : (List.zipWith (fun w (p : Point R) => w * p 1) rule.weights rule.points).sum = 0)
    (hv : (Quad4JacobianCalculator.new ⟨.QUAD4, qt, o⟩ rule).getJxW elem = .ok v) :
    v.sum = quad4Area (elem.node 0) (elem.node 1) (elem.node 2) (elem.node 3) := by
  by_cases he : elem.type = .QUAD4
  · rw [Quad4JacobianCalculator.getJxW_eq (Quad4JacobianCalculator.new_wf ⟨.QUAD4, qt, o⟩ rule)
        he (by rw [he]; decide)] at hv
    dsimp only at hv
    rw [scaleJxW_of_ok _ fun _ _ => rfl] at hv
    split_ifs at hv
    cases hv
    simp only [Quad4JacobianCalculator.new, JacobianCalculator.new_quadWeights,
      JacobianCalculator.new_quadPoints]
    rw [sum_mapIdx_affine (Quad4Coefficients.jacobian_eq_affine _) _ _ rule.length_eq.symm, hw, hx,
      hy, ← jacobian_zero_eq_area]
    ring
  · rw [Quad4JacobianCalculator.getJxW_of_ne (show elem.type ≠ _ from he)] at hv
    cases hv

/-- The unit square under the one-point Gauss rule: `JxW = [1]`, its area. -/
theorem quad4_unit_square_area :
    (Quad4JacobianCalculator.new ⟨.QUAD4, .QGAUSS, 1⟩ ⟨[0], [4], rfl⟩).getJxW
        ⟨.QUAD4, [![0, 0, 0], ![1, 0, 0], ![1, 1, 0], ![0, 1, 0]], rfl⟩ = .ok [(1 : ℚ)] ∧
      [(1 : ℚ)].sum = quad4Area ![0, 0, 0] ![1, 0, 0] ![1, 1, 0] ![0, 1, 0] := by
  have hJ : (Quad4Coefficients.of ![0, 0, 0] ![1, 0, 0] ![1, 1, 0] ![0, 1, 0] :
      Quad4Coefficients ℚ).jacobian 0 0 = 1 / 4 := by
    norm_num [Quad4Coefficients.of, Quad4Coefficients.jacobian]
  have hv : (Quad4JacobianCalculator.new ⟨.QUAD4, .QGAUSS, 1⟩ ⟨[0], [4], rfl⟩).getJxW
      (⟨.QUAD4, [![0, 0, 0], ![1, 0, 0], ![1, 1, 0], ![0, 1, 0]], rfl⟩ : Elem ℚ) = .ok [1] := by
    rw [Quad4JacobianCalculator.getJxW_eq (Quad4JacobianCalculator.new_wf _ _) rfl (by decide)]
    simp [scaleJxW, Elem.node, Quad4JacobianCalculator.new, hJ]
  have h := quad4_jxw_sum_eq_area .QGAUSS 1 ⟨[0], [4], rfl⟩ _ _ (by norm_num) (by simp) (by simp) hv
  exact ⟨hv, h⟩

end IBTK
