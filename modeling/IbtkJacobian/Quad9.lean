import IbtkJacobian.Base
import IbtkJacobian.Reference

/- `Quad9JacobianCalculator`, the tensor-product kernel for nine-node quadrilaterals.

   The constructor takes `n = round(√Q)`, asserts `n² = Q`, reads the 1-D nodes `p_i` off
   the first `n` points, and asserts that point `j·n + i` is `(p_i, p_j)`: x varies
   fastest, as in libMesh's `QBase::tensor_product_quad`. It tabulates the three `EDGE3`
   shape functions and their derivatives at the `p_i`, reordered left to right
   (`ibamrToLibmeshOrdering`). `get_JxW` lays the nine nodes out on a 3×3 grid, `i` the
   `y` index and `j` the `x` index, and at point `q` accumulates the 2×2 Jacobian from the
   tables at `q % n` and `q / n`.

   `new_eq_ok` says what a successful construction gives; `getJxW_eq` evaluates
   `get_JxW` for a calculator so built, on an element with nine nodes, and
   `jacobianAt_of_new` its `J` at a point of the accepted rule.

   On libMesh's reference `QUAD9` the kernel's `J` is `1` at every point of every rule the
   constructor accepts: `get_JxW` lays the nodes out on its grid at the reference positions
   (`grid_quad9RefElem`), and the `EDGE3` tables, in the kernel's left-to-right order,
   reproduce the constants and the coordinate (`edge3_ordered_sums`), so each entry of
   `Jac` is a product of two 1-D sums (`jacobian_quad9RefElem`). -/

namespace IBTK

variable {R : Type} [LinearOrderedField R]

/-- `std::round(std::sqrt(Q))` in exact arithmetic: the integer nearest `√Q`, which is
never halfway between two integers. -/
def roundSqrt (Q : Nat) : Nat :=
  let s := Nat.sqrt Q
  if Q - s * s ≤ s then s else s + 1

theorem roundSqrt_mul_self (n : Nat) : roundSqrt (n * n) = n := by
  simp [roundSqrt, Nat.sqrt_eq]

/-- `ibamr_to_libmesh_ordering`: the kernel's 1-D nodes left to right, `-1, 0, 1`, are
libMesh's `EDGE3` nodes `0, 2, 1`. -/
def ibamrToLibmeshOrdering : Fin 3 → Fin 3 := ![0, 2, 1]

/-- The state of `Quad9JacobianCalculator`: the base's, `d_n_oned_q_points`, and the
`3 × n` tables `d_phi` and `d_dphi`. -/
structure Quad9JacobianCalculator (R : Type) extends JacobianCalculator R where
  nOnedQPoints : Nat
  phi : Fin 3 → List R
  dphi : Fin 3 → List R

/-- The 1-D node `p_i` the constructor reads off the rule: the `x` coordinate of point `i`. -/
def onedPoint (quadPoints : List (Point R)) (i : Nat) : R := quadPoints.getD i 0 0

/-- What the constructor's second check accepts: point `j·n + i` is `(p_i, p_j)`. -/
def IsTensorRule (quadPoints : List (Point R)) (n : Nat) : Prop :=
  ∀ j < n, ∀ i < n,
    quadPoints.getD (j * n + i) 0 = ![onedPoint quadPoints i, onedPoint quadPoints j, 0]

/-- One check of the constructor's loop: `d_quad_points[q] == Point(oned_points[i](0),
oned_points[j](0))` with `q = j·n + i`. -/
def tensorEntry (quadPoints : List (Point R)) (onedPoints : List R) (n j i : Nat) :
    Except JacobianError Unit := do
  let p ← getChecked quadPoints (j * n + i)
  let x ← getChecked onedPoints i
  let y ← getChecked onedPoints j
  if p = ![x, y, 0] then .ok () else .error .notTensorProduct

namespace Quad9JacobianCalculator

/-- `Quad9JacobianCalculator(quad_key)`. -/
def new (quadKey : KeyType) (rule : QRule R) : Except JacobianError (Quad9JacobianCalculator R) :=
  let base := JacobianCalculator.new quadKey rule
  let n := roundSqrt base.quadPoints.length
  if n * n = base.quadPoints.length then do
    let onedPoints ← (List.range n).mapM fun q => (· 0) <$> getChecked base.quadPoints q
    (List.range n).forM fun j => (List.range n).forM fun i =>
      tensorEntry base.quadPoints onedPoints n j i
    .ok { base with
      nOnedQPoints := n
      phi := fun i => onedPoints.map (edge3Shape (ibamrToLibmeshOrdering i))
      dphi := fun i => onedPoints.map (edge3ShapeDeriv (ibamrToLibmeshOrdering i)) }
  else .error .nonSquareRule

/-- Column `q` of a three-row table: `t(0, q)`, `t(1, q)`, `t(2, q)`. -/
def column (t : Fin 3 → List R) (q : Nat) : Except JacobianError (Fin 3 → R) := do
  let a ← getChecked (t 0) q
  let b ← getChecked (t 1) q
  let c ← getChecked (t 2) q
  .ok ![a, b, c]

/-- The 2×2 Jacobian the double loop accumulates, and its determinant: `xs[i][j]`,
`ys[i][j]` are the node coordinates, `phix`, `dphix` the tables at `q % n` (index `j`),
`phiy`, `dphiy` those at `q / n` (index `i`). -/
def jacobian (xs ys : Fin 3 → Fin 3 → R) (phix dphix phiy dphiy : Fin 3 → R) : R :=
  let Jac_00 := ∑ i, ∑ j, xs i j * dphix j * phiy i
  let Jac_01 := ∑ i, ∑ j, xs i j * phix j * dphiy i
  let Jac_10 := ∑ i, ∑ j, ys i j * dphix j * phiy i
  let Jac_11 := ∑ i, ∑ j, ys i j * phix j * dphiy i
  Jac_00 * Jac_11 - Jac_01 * Jac_10

/-- The `J` of `get_JxW` at quadrature point `q`. -/
def jacobianAt (c : Quad9JacobianCalculator R) (xs ys : Fin 3 → Fin 3 → R) (q : Nat) :
    Except JacobianError R := do
  let q_point_x := q % c.nOnedQPoints
  let q_point_y := q / c.nOnedQPoints
  let phix ← column c.phi q_point_x
  let dphix ← column c.dphi q_point_x
  let phiy ← column c.phi q_point_y
  let dphiy ← column c.dphi q_point_y
  .ok (jacobian xs ys phix dphix phiy dphiy)

/-- `Quad9JacobianCalculator::get_JxW(elem)`. -/
def getJxW (c : Quad9JacobianCalculator R) (elem : Elem R) : Except JacobianError (List R) := do
  let JxW ← c.initJxW elem
  let p0 ← elem.point 0
  let p4 ← elem.point 4
  let p1 ← elem.point 1
  let p7 ← elem.point 7
  let p8 ← elem.point 8
  let p5 ← elem.point 5
  let p3 ← elem.point 3
  let p6 ← elem.point 6
  let p2 ← elem.point 2
  let points : Fin 3 → Fin 3 → Point R := ![![p0, p4, p1], ![p7, p8, p5], ![p3, p6, p2]]
  scaleJxW (c.jacobianAt (fun i j => points i j 0) (fun i j => points i j 1)) 0 JxW

/-- The state a successful construction leaves, kept by every call. -/
structure WF (c : Quad9JacobianCalculator R) extends c.toJacobianCalculator.WF : Prop where
  square : c.nOnedQPoints * c.nOnedQPoints = c.quadWeights.length
  length_phi : ∀ i, (c.phi i).length = c.nOnedQPoints
  length_dphi : ∀ i, (c.dphi i).length = c.nOnedQPoints

/-- The nine nodes on the kernel's 3×3 grid: `points[i][j]`, `i` the `y` index. -/
def grid (node : Nat → Point R) : Fin 3 → Fin 3 → Point R :=
  ![![node 0, node 4, node 1], ![node 7, node 8, node 5], ![node 3, node 6, node 2]]

/-- The node at row `i`, column `j` of the grid. -/
def gridNode : Fin 3 → Fin 3 → Fin 9 := ![![0, 4, 1], ![7, 8, 5], ![3, 6, 2]]

omit [LinearOrderedField R] in
theorem grid_eq (node : Nat → Point R) (i j : Fin 3) : grid node i j = node (gridNode i j) := by
  fin_cases i <;> fin_cases j <;> rfl

/-- The grid holds each of the nine nodes once, at the `EDGE3` nodes libMesh's `QUAD9`
tables give it, read through `ibamr_to_libmesh_ordering`. -/
theorem gridNode_bijective : Function.Bijective fun p : Fin 3 × Fin 3 => gridNode p.1 p.2 := by
  decide

theorem quad9I_gridNode : ∀ i j, quad9I0 (gridNode i j) = ibamrToLibmeshOrdering j ∧
    quad9I1 (gridNode i j) = ibamrToLibmeshOrdering i := by
  decide

/-- Column `q` of a table, read as a function. -/
def columnOf (t : Fin 3 → List R) (q : Nat) : Fin 3 → R := fun i => (t i).getD q 0

theorem columnOf_map {n q : Nat} (f : Fin 3 → Nat → R) (hq : q < n) :
    columnOf (fun i => (List.range n).map (f i)) q = fun i => f i q := by
  funext i
  simp [columnOf, hq]

end Quad9JacobianCalculator

theorem IsTensorRule.point_eq {quadPoints : List (Point R)} {n q : Nat}
    (h : IsTensorRule quadPoints n) (hq : q < n * n) :
    quadPoints.getD q 0 = ![onedPoint quadPoints (q % n), onedPoint quadPoints (q / n), 0] := by
  have hn : 0 < n := Nat.pos_of_ne_zero fun h0 => by simp [h0] at hq
  have := h (q / n) ((Nat.div_lt_iff_lt_mul hn).mpr hq) (q % n) (Nat.mod_lt q hn)
  rwa [Nat.div_add_mod'] at this

/-! The constructor, evaluated. -/

theorem mapM_onedPoint {quadPoints : List (Point R)} : ∀ {l : List Nat},
    (∀ q ∈ l, q < quadPoints.length) →
    l.mapM (fun q => (· 0) <$> getChecked quadPoints q) = .ok (l.map (onedPoint quadPoints))
  | [], _ => rfl
  | q :: l, h => by
    have hq : q < quadPoints.length := h q (by simp)
    rw [List.mapM_cons, getChecked_of_lt hq, map_ok, ok_bind,
      mapM_onedPoint fun q' hq' => h q' (by simp [hq'])]
    simp [onedPoint, List.getElem?_eq_getElem hq]

theorem tensorEntry_eq {quadPoints : List (Point R)} {n j i : Nat}
    (hQ : quadPoints.length = n * n) (hj : j < n) (hi : i < n) :
    tensorEntry quadPoints ((List.range n).map (onedPoint quadPoints)) n j i =
      if quadPoints.getD (j * n + i) 0 = ![onedPoint quadPoints i, onedPoint quadPoints j, 0]
      then .ok () else .error .notTensorProduct := by
  have hq : j * n + i < quadPoints.length := by
    rw [hQ]
    calc j * n + i < (j + 1) * n := by rw [Nat.succ_mul]; omega
      _ ≤ n * n := Nat.mul_le_mul_right n hj
  simp [tensorEntry, getChecked_of_lt hq, List.getElem?_eq_getElem hq, hi, hj]

theorem tensorLoop_eq_ok {quadPoints : List (Point R)} {n : Nat} (hQ : quadPoints.length = n * n) :
    ((List.range n).forM fun j => (List.range n).forM fun i =>
      tensorEntry quadPoints ((List.range n).map (onedPoint quadPoints)) n j i) = .ok () ↔
      IsTensorRule quadPoints n := by
  simp only [forM_eq_ok, List.mem_range]
  refine forall₂_congr fun j hj => forall₂_congr fun i hi => ?_
  rw [tensorEntry_eq hQ hj hi]
  split_ifs with h
  · exact iff_of_true rfl h
  · exact iff_of_false (by simp) h

theorem tensorLoop_eq_error {quadPoints : List (Point R)} {n : Nat} {e : JacobianError}
    (hQ : quadPoints.length = n * n)
    (h : ((List.range n).forM fun j => (List.range n).forM fun i =>
      tensorEntry quadPoints ((List.range n).map (onedPoint quadPoints)) n j i) = .error e) :
    e = .notTensorProduct := by
  obtain ⟨j, hj, h⟩ := forM_eq_error h
  obtain ⟨i, hi, h⟩ := forM_eq_error h
  rw [List.mem_range] at hj hi
  rw [tensorEntry_eq hQ hj hi] at h
  split_ifs at h; cases h; rfl

theorem range_roundSqrt_lt {Q : Nat} (hsq : roundSqrt Q * roundSqrt Q = Q) :
    ∀ q ∈ List.range (roundSqrt Q), q < Q := fun q hq =>
  calc q < roundSqrt Q := List.mem_range.mp hq
    _ ≤ roundSqrt Q * roundSqrt Q := Nat.le_mul_self _
    _ = Q := hsq

namespace Quad9JacobianCalculator

/-- **A successful construction.** The constructor succeeds iff `round(√Q)² = Q` and the
rule is the tensor product of its first row; it then tabulates the `EDGE3` basis at the
row's `x` coordinates. -/
theorem new_eq_ok {quadKey : KeyType} {rule : QRule R} {c : Quad9JacobianCalculator R} :
    new quadKey rule = .ok c ↔
      let n := roundSqrt rule.points.length
      n * n = rule.points.length ∧ IsTensorRule rule.points n ∧
      c = { JacobianCalculator.new quadKey rule with
        nOnedQPoints := n
        phi := fun i => (List.range n).map fun q =>
          edge3Shape (ibamrToLibmeshOrdering i) (onedPoint rule.points q)
        dphi := fun i => (List.range n).map fun q =>
          edge3ShapeDeriv (ibamrToLibmeshOrdering i) (onedPoint rule.points q) } := by
  simp only [new, JacobianCalculator.new_quadPoints]
  split_ifs with hsq
  · rw [mapM_onedPoint (range_roundSqrt_lt hsq), ok_bind]
    cases hloop : ((List.range (roundSqrt rule.points.length)).forM fun j =>
        (List.range (roundSqrt rule.points.length)).forM fun i =>
          tensorEntry rule.points ((List.range (roundSqrt rule.points.length)).map
            (onedPoint rule.points)) (roundSqrt rule.points.length) j i) with
    | error e =>
      have hT := mt (tensorLoop_eq_ok hsq.symm).mpr (by rw [hloop]; simp)
      simp [hT]
    | ok u =>
      have hT := (tensorLoop_eq_ok hsq.symm).mp hloop
      simp [hT, hsq, eq_comm, Function.comp_def]
  · simp [hsq]

theorem new_wf {quadKey : KeyType} {rule : QRule R} {c : Quad9JacobianCalculator R}
    (h : new quadKey rule = .ok c) : c.WF := by
  obtain ⟨hsq, -, rfl⟩ := new_eq_ok.mp h
  exact { JacobianCalculator.new_wf quadKey rule with
    square := by simpa [rule.length_eq] using hsq
    length_phi := by simp
    length_dphi := by simp }

theorem new_eq_error {quadKey : KeyType} {rule : QRule R} {e : JacobianError}
    (h : new quadKey rule = .error e) : e = .nonSquareRule ∨ e = .notTensorProduct := by
  simp only [new, JacobianCalculator.new_quadPoints] at h
  split_ifs at h with hsq
  · rw [mapM_onedPoint (range_roundSqrt_lt hsq), ok_bind] at h
    obtain hloop | ⟨u, -, h⟩ := bind_eq_error.mp h
    · exact .inr (tensorLoop_eq_error hsq.symm hloop)
    · cases h
  · cases h; exact .inl rfl

theorem new_one_point (quadKey : KeyType) :
    ∃ c : Quad9JacobianCalculator R, new quadKey ⟨[0], [4], rfl⟩ = .ok c :=
  ⟨_, new_eq_ok.mpr ⟨rfl, fun j hj i hi => by
    have h1 : roundSqrt 1 = 1 := roundSqrt_mul_self 1
    simp only [List.length_singleton, h1, Nat.lt_one_iff] at hj hi
    subst hj hi
    funext k; fin_cases k <;> rfl, rfl⟩⟩

/-! `get_JxW`, evaluated. -/

theorem getJxW_of_ne {c : Quad9JacobianCalculator R} {elem : Elem R}
    (he : elem.type ≠ c.quadKey.elemType) : c.getJxW elem = .error .elemTypeMismatch := by
  rw [getJxW, JacobianCalculator.initJxW_of_ne he, error_bind]

theorem column_of_lt {t : Fin 3 → List R} {q : Nat} (h : ∀ i, q < (t i).length) :
    column t q = .ok (columnOf t q) := by
  rw [column, getChecked_of_lt (h 0), ok_bind, getChecked_of_lt (h 1), ok_bind,
    getChecked_of_lt (h 2), ok_bind]
  congr 1
  funext i
  fin_cases i <;> simp [columnOf, List.getElem?_eq_getElem (h _)]

variable {c : Quad9JacobianCalculator R} {elem : Elem R}

theorem jacobianAt_of_lt (hc : c.WF) (xs ys : Fin 3 → Fin 3 → R) {q : Nat}
    (hq : q < c.quadWeights.length) :
    c.jacobianAt xs ys q = .ok (jacobian xs ys
      (columnOf c.phi (q % c.nOnedQPoints)) (columnOf c.dphi (q % c.nOnedQPoints))
      (columnOf c.phi (q / c.nOnedQPoints)) (columnOf c.dphi (q / c.nOnedQPoints))) := by
  have hn : 0 < c.nOnedQPoints := by
    rcases Nat.eq_zero_or_pos c.nOnedQPoints with h0 | h0
    · rw [← hc.square, h0] at hq; simp at hq
    · exact h0
  have hx : q % c.nOnedQPoints < c.nOnedQPoints := Nat.mod_lt _ hn
  have hy : q / c.nOnedQPoints < c.nOnedQPoints := by
    rw [Nat.div_lt_iff_lt_mul hn, hc.square]; exact hq
  rw [jacobianAt, column_of_lt fun i => hc.length_phi i ▸ hx, ok_bind,
    column_of_lt fun i => hc.length_dphi i ▸ hx, ok_bind,
    column_of_lt fun i => hc.length_phi i ▸ hy, ok_bind,
    column_of_lt fun i => hc.length_dphi i ▸ hy, ok_bind]

/-- **The kernel, evaluated.** For a calculator in its constructed state, on an element of
the key's type with nine nodes, `get_JxW` is the loop over the 2×2 Jacobians of the grid
of nodes, with the tables at `q % n` and `q / n`. -/
theorem getJxW_eq (hc : c.WF) (he : elem.type = c.quadKey.elemType)
    (hn : 9 ≤ getNNodes elem.type) :
    c.getJxW elem = scaleJxW (fun q => .ok (jacobian
      (fun i j => grid elem.node i j 0) (fun i j => grid elem.node i j 1)
      (columnOf c.phi (q % c.nOnedQPoints)) (columnOf c.dphi (q % c.nOnedQPoints))
      (columnOf c.phi (q / c.nOnedQPoints)) (columnOf c.dphi (q / c.nOnedQPoints)))) 0
      c.quadWeights := by
  rw [getJxW, JacobianCalculator.initJxW_of_length hc.length_JxW, if_pos he, ok_bind]
  simp only [elem.point_eq_node (show 0 < getNNodes elem.type by omega),
    elem.point_eq_node (show 1 < getNNodes elem.type by omega),
    elem.point_eq_node (show 2 < getNNodes elem.type by omega),
    elem.point_eq_node (show 3 < getNNodes elem.type by omega),
    elem.point_eq_node (show 4 < getNNodes elem.type by omega),
    elem.point_eq_node (show 5 < getNNodes elem.type by omega),
    elem.point_eq_node (show 6 < getNNodes elem.type by omega),
    elem.point_eq_node (show 7 < getNNodes elem.type by omega),
    elem.point_eq_node (show 8 < getNNodes elem.type by omega), ok_bind]
  exact scaleJxW_congr fun q hq => jacobianAt_of_lt hc _ _ (by omega)

/-- At point `q` of a rule the constructor accepted, the kernel reads the `EDGE3` basis, left
to right, at the 1-D points `p_{q % n}` and `p_{q / n}`. -/
theorem jacobianAt_of_new {quadKey : KeyType} {rule : QRule R} (h : new quadKey rule = .ok c)
    (xs ys : Fin 3 → Fin 3 → R) {q : Nat} (hq : q < rule.points.length) :
    c.jacobianAt xs ys q = .ok (jacobian xs ys
      (fun j => edge3Shape (ibamrToLibmeshOrdering j) (onedPoint rule.points (q % c.nOnedQPoints)))
      (fun j => edge3ShapeDeriv (ibamrToLibmeshOrdering j)
        (onedPoint rule.points (q % c.nOnedQPoints)))
      (fun i => edge3Shape (ibamrToLibmeshOrdering i) (onedPoint rule.points (q / c.nOnedQPoints)))
      (fun i => edge3ShapeDeriv (ibamrToLibmeshOrdering i)
        (onedPoint rule.points (q / c.nOnedQPoints)))) := by
  have hw := new_wf h
  obtain ⟨hsq, -, rfl⟩ := new_eq_ok.mp h
  have hqn : q < roundSqrt rule.points.length * roundSqrt rule.points.length := by rwa [hsq]
  have hn : 0 < roundSqrt rule.points.length := Nat.pos_of_ne_zero fun h0 => by simp [h0] at hqn
  rw [jacobianAt_of_lt hw _ _ (show q < rule.weights.length by rw [← rule.length_eq]; exact hq)]
  simp only [columnOf_map _ (Nat.mod_lt q hn), columnOf_map _ ((Nat.div_lt_iff_lt_mul hn).mpr hqn)]

end Quad9JacobianCalculator

/-! The reference element. -/

/-- libMesh's reference `QUAD9`: the corners, the edge midpoints and the centre. -/
def quad9RefElem : Elem R :=
  ⟨.QUAD9, [![-1, -1, 0], ![1, -1, 0], ![1, 1, 0], ![-1, 1, 0], ![0, -1, 0], ![1, 0, 0],
    ![0, 1, 0], ![-1, 0, 0], ![0, 0, 0]], rfl⟩

/-- The `EDGE3` basis in the kernel's order, over its nodes `-1, 0, 1`: the shapes sum to
one, and the derivatives reproduce those of `1` and of `x`. -/
theorem edge3_ordered_sums (x : R) :
    ∑ j, edge3Shape (ibamrToLibmeshOrdering j) x = 1 ∧
    ∑ j, edge3ShapeDeriv (ibamrToLibmeshOrdering j) x = 0 ∧
    ∑ j, ![-1, 0, 1] j * edge3ShapeDeriv (ibamrToLibmeshOrdering j) x = 1 := by
  simp only [Fin.sum_univ_three, ibamrToLibmeshOrdering, edge3Shape, edge3ShapeDeriv,
    Matrix.cons_val_zero, Matrix.cons_val_one, Matrix.cons_val_two, Matrix.head_cons,
    Matrix.tail_cons]
  refine ⟨by ring, by ring, by ring⟩

theorem sum_grid_col (s : Fin 3 → Fin 3 → R) (u v : Fin 3 → R)
    (hs : ∀ i j, s i j = ![-1, 0, 1] j) :
    ∑ i, ∑ j, s i j * u j * v i = (∑ i, v i) * ∑ j, ![-1, 0, 1] j * u j := by
  simp only [Finset.sum_mul_sum, hs]
  exact Finset.sum_congr rfl fun i _ => Finset.sum_congr rfl fun j _ => by ring

theorem sum_grid_row (s : Fin 3 → Fin 3 → R) (u v : Fin 3 → R)
    (hs : ∀ i j, s i j = ![-1, 0, 1] i) :
    ∑ i, ∑ j, s i j * u j * v i = (∑ i, ![-1, 0, 1] i * v i) * ∑ j, u j := by
  simp only [Finset.sum_mul_sum, hs]
  exact Finset.sum_congr rfl fun i _ => Finset.sum_congr rfl fun j _ => by ring

/-- `points[i][j]` of the reference `QUAD9` is `(t_j, t_i)`, `t = (-1, 0, 1)`. -/
theorem grid_quad9RefElem (i j : Fin 3) :
    Quad9JacobianCalculator.grid (quad9RefElem (R := R)).node i j 0 = ![-1, 0, 1] j ∧
    Quad9JacobianCalculator.grid (quad9RefElem (R := R)).node i j 1 = ![-1, 0, 1] i := by
  fin_cases i <;> fin_cases j <;> exact ⟨rfl, rfl⟩

theorem jacobian_quad9RefElem (x y : R) :
    Quad9JacobianCalculator.jacobian
      (fun i j => Quad9JacobianCalculator.grid quad9RefElem.node i j 0)
      (fun i j => Quad9JacobianCalculator.grid quad9RefElem.node i j 1)
      (fun j => edge3Shape (ibamrToLibmeshOrdering j) x)
      (fun j => edge3ShapeDeriv (ibamrToLibmeshOrdering j) x)
      (fun i => edge3Shape (ibamrToLibmeshOrdering i) y)
      (fun i => edge3ShapeDeriv (ibamrToLibmeshOrdering i) y) = 1 := by
  obtain ⟨hx1, hx2, hx3⟩ := edge3_ordered_sums x
  obtain ⟨hy1, hy2, hy3⟩ := edge3_ordered_sums y
  simp only [Quad9JacobianCalculator.jacobian]
  rw [sum_grid_col _ _ _ fun i j => (grid_quad9RefElem i j).1,
    sum_grid_col _ _ _ fun i j => (grid_quad9RefElem i j).1,
    sum_grid_row _ _ _ fun i j => (grid_quad9RefElem i j).2,
    sum_grid_row _ _ _ fun i j => (grid_quad9RefElem i j).2, hx1, hx2, hx3, hy1, hy2, hy3]
  ring

/-- **On the reference `QUAD9` every accepted rule's weights come back unchanged**: the
kernel's `J` is `1` at every point. -/
theorem Quad9JacobianCalculator.getJxW_quad9RefElem {qt : QuadratureType} {o : Nat}
    {rule : QRule R} {c : Quad9JacobianCalculator R}
    (h : Quad9JacobianCalculator.new ⟨.QUAD9, qt, o⟩ rule = .ok c) :
    c.getJxW quad9RefElem = .ok rule.weights := by
  have hw := new_wf h
  have hk : c.toJacobianCalculator = JacobianCalculator.new ⟨.QUAD9, qt, o⟩ rule := by
    obtain ⟨-, -, rfl⟩ := new_eq_ok.mp h; rfl
  rw [getJxW_eq hw (by rw [hk]; rfl) (by exact le_rfl),
    show c.quadWeights = rule.weights by rw [hk]; rfl,
    @scaleJxW_congr _ _ _ (fun _ => .ok 1) 0 _ fun q hq => by
      rw [Nat.zero_add, ← jacobianAt_of_lt hw _ _ (by rw [hk]; exact hq),
        jacobianAt_of_new h _ _ (by rw [rule.length_eq]; exact hq), jacobian_quad9RefElem],
    scaleJxW_const_zero, if_pos (.inl one_pos)]
  simp

end IBTK
