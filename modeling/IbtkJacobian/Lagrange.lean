import IbtkJacobian.Base

/- The generic path, `LagrangeJacobianCalculator<dim, spacedim>`. The template parameters
   are type parameters; the explicit instantiations are the pairs in `instantiations`.

   The constructor fills `d_dphi[n][q][d]` with the derivative of shape function `n` along
   reference axis `d` at quadrature point `q`. `get_JxW` copies the element's nodes into
   the fixed `max_n_nodes × spacedim` buffer `xs` (`readNodes`), and at every point forms
   the `spacedim × dim` matrix `contravariant` (`contravariantAt`), takes its determinant
   when it is square and the square root of the determinant of its Gram matrix
   `contravariantᵀ contravariant` otherwise (`jacobianOf`), asserts `J > 0` and multiplies
   it into the copied weight.

   The `determinant` helper is the primary template, which compiles for every
   `double[M][N]` and fails at run time, and its specialisations for 1×1, 2×2 and 3×3, the
   last a cofactor expansion along the first column; for the three sizes it is Mathlib's
   `Matrix.det` (`determinant_eq_det`).

   `getJxW_eq_scaleJxW` evaluates the reads once: for a calculator in the state its
   constructor leaves (`WF`), on an element of its type, `get_JxW` is the shared loop over
   the contravariant matrix `contravariant` of the cached table and the node coordinates. -/

namespace IBTK

section Determinant

variable {R : Type} [CommRing R]

/-- `determinant(A)` for `A` a `double[M][N]`. -/
def determinant : {m n : Nat} → (Fin m → Fin n → R) → Except JacobianError R
  | 1, 1, A => .ok (A 0 0)
  | 2, 2, A => .ok (A 0 0 * A 1 1 - A 0 1 * A 1 0)
  | 3, 3, A =>
    .ok (A 0 0 * (A 1 1 * A 2 2 - A 1 2 * A 2 1) - A 1 0 * (A 0 1 * A 2 2 - A 0 2 * A 2 1) +
      A 2 0 * (A 0 1 * A 1 2 - A 0 2 * A 1 1))
  | _, _, _ => .error .nonSquareDeterminant

/-- The three specialisations compute the determinant. -/
theorem determinant_eq_det {n : Nat} (A : Matrix (Fin n) (Fin n) R) (h1 : 1 ≤ n)
    (h3 : n ≤ 3) : determinant A = .ok A.det := by
  obtain rfl | rfl | rfl : n = 1 ∨ n = 2 ∨ n = 3 := by omega
  · simp [determinant, Matrix.det_fin_one]
  · simp [determinant, Matrix.det_fin_two]
  · rw [determinant, Matrix.det_fin_three]; congr 1; ring

end Determinant

variable {R : Type} [LinearOrderedField R] {dim spacedim : Nat}

/-- The state of `LagrangeJacobianCalculator<dim, spacedim>`: the base's, `d_n_nodes`, and
the table `d_dphi`, one row of `Q` gradients a node. -/
structure LagrangeJacobianCalculator (R : Type) (dim spacedim : Nat)
    extends JacobianCalculator R where
  nNodes : Nat
  dphi : List (List (Fin dim → R))

namespace LagrangeJacobianCalculator

/-- `LagrangeJacobianCalculator<dim, spacedim>(quad_key)`. `shapeDeriv n d p` is
`FE<dim, LAGRANGE>::shape_deriv(elem_type, get_default_order(elem_type), n, d, p)` for the
key's element type. -/
def new (quadKey : KeyType) (rule : QRule R)
    (shapeDeriv : Fin (getNNodes quadKey.elemType) → Fin dim → Point R → R) :
    Except JacobianError (LagrangeJacobianCalculator R dim spacedim) :=
  let base := JacobianCalculator.new quadKey rule
  if getNNodes quadKey.elemType ≤ maxNNodes then
    .ok { base with
      nNodes := getNNodes quadKey.elemType
      dphi := (List.finRange (getNNodes quadKey.elemType)).map fun n =>
        base.quadPoints.map fun p d => shapeDeriv n d p }
  else .error .tooManyNodes

end LagrangeJacobianCalculator

/-- `xs[i][j] = p(j)` for `j < spacedim`; a libMesh `Point` has three coordinates. -/
def coords (p : Point R) : Except JacobianError (Fin spacedim → R) :=
  if spacedim ≤ 3 then .ok fun j => Point.coord p j else .error .outOfRange

/-- The loop `xs[i] = elem->point(i)` for `i < n`, into the buffer `xs` of `max_n_nodes`
rows. -/
def readNodes (elem : Elem R) : Nat → Except JacobianError (List (Fin spacedim → R))
  | 0 => .ok []
  | i + 1 => do
    let xs ← readNodes elem i
    if i < maxNNodes then
      let p ← elem.point i
      let x ← coords p
      .ok (xs ++ [x])
    else .error .outOfRange

/-- `contravariant[i][j] += xs[n][i] * d_dphi[n][q][j]` for the nodes `n < N`. -/
def contravariantAt (xs : List (Fin spacedim → R)) (dphi : List (List (Fin dim → R)))
    (q : Nat) : Nat → Except JacobianError (Fin spacedim → Fin dim → R)
  | 0 => .ok fun _ _ => 0
  | n + 1 => do
    let F ← contravariantAt xs dphi q n
    let x ← getChecked xs n
    let row ← getChecked dphi n
    let g ← getChecked row q
    .ok fun i j => F i j + x i * g j

/-- `Jac[i][j] = Σ_k dx_t[i][k] * dx_t[j][k]`, with `dx_t` the transpose of
`contravariant`. -/
def gram (contravariant : Fin spacedim → Fin dim → R) : Fin dim → Fin dim → R :=
  let dx_t : Fin dim → Fin spacedim → R := fun j i => contravariant i j
  fun i j => ∑ k, dx_t i k * dx_t j k

/-- `J` from `contravariant`: `determinant(contravariant)` if `dim == spacedim`, else
`std::sqrt(determinant(Jac))`. -/
def jacobianOf (sqrt : R → R) (contravariant : Fin spacedim → Fin dim → R) :
    Except JacobianError R :=
  if dim = spacedim then determinant contravariant
  else sqrt <$> determinant (gram contravariant)

namespace LagrangeJacobianCalculator

/-- `LagrangeJacobianCalculator<dim, spacedim>::get_JxW(elem)`; `sqrt` is `std::sqrt`. -/
def getJxW (sqrt : R → R) (c : LagrangeJacobianCalculator R dim spacedim) (elem : Elem R) :
    Except JacobianError (List R) := do
  let JxW ← c.initJxW elem
  let xs : List (Fin spacedim → R) ← readNodes elem c.nNodes
  scaleJxW (fun q => contravariantAt xs c.dphi q c.nNodes >>= jacobianOf sqrt) 0 JxW

/-- The state the constructor leaves, kept by every call. -/
structure WF (c : LagrangeJacobianCalculator R dim spacedim) extends
    c.toJacobianCalculator.WF : Prop where
  nNodes_eq : c.nNodes = getNNodes c.quadKey.elemType
  length_dphi : c.dphi.length = c.nNodes
  length_row : ∀ row ∈ c.dphi, row.length = c.quadWeights.length

/-- The cached table as a function: `d_dphi[n][q]`. -/
def table (c : LagrangeJacobianCalculator R dim spacedim) (n q : Nat) : Fin dim → R :=
  (c.dphi.getD n []).getD q 0

/-- The contravariant matrix at point `q` for the element's nodes `x_n`:
`F_q[i][j] = Σ_n x_n(i) · d_dphi[n][q][j]`. -/
def contravariant (c : LagrangeJacobianCalculator R dim spacedim) (elem : Elem R) (q : Nat) :
    Matrix (Fin spacedim) (Fin dim) R :=
  Matrix.of fun i j => ∑ n : Fin c.nNodes, Point.coord (elem.node n) i * c.table n q j

theorem new_wf {quadKey : KeyType} {rule : QRule R}
    {shapeDeriv : Fin (getNNodes quadKey.elemType) → Fin dim → Point R → R}
    {c : LagrangeJacobianCalculator R dim spacedim} (h : new quadKey rule shapeDeriv = .ok c) :
    c.WF := by
  unfold new at h
  split_ifs at h
  cases h
  exact { JacobianCalculator.new_wf quadKey rule with
    nNodes_eq := rfl, length_dphi := by simp, length_row := by simp [rule.length_eq] }

theorem new_toJacobianCalculator {quadKey : KeyType} {rule : QRule R}
    {shapeDeriv : Fin (getNNodes quadKey.elemType) → Fin dim → Point R → R}
    {c : LagrangeJacobianCalculator R dim spacedim} (h : new quadKey rule shapeDeriv = .ok c) :
    c.toJacobianCalculator = JacobianCalculator.new quadKey rule := by
  unfold new at h
  split_ifs at h
  cases h
  rfl

theorem new_ok (quadKey : KeyType) (rule : QRule R)
    (shapeDeriv : Fin (getNNodes quadKey.elemType) → Fin dim → Point R → R) :
    ∃ c : LagrangeJacobianCalculator R dim spacedim, new quadKey rule shapeDeriv = .ok c :=
  ⟨_, if_pos (getNNodes_le_maxNNodes _)⟩

end LagrangeJacobianCalculator

/-! The reads, evaluated. -/

theorem coords_of_le {p : Point R} (h : spacedim ≤ 3) :
    (coords p : Except JacobianError (Fin spacedim → R)) = .ok fun j => Point.coord p j :=
  if_pos h

theorem readNodes_eq {elem : Elem R} (hs : spacedim ≤ 3) : ∀ {n : Nat}, n ≤ maxNNodes →
    n ≤ elem.nodes.length →
    (readNodes elem n : Except JacobianError (List (Fin spacedim → R))) =
      .ok ((elem.nodes.take n).map fun p j => Point.coord p j)
  | 0, _, _ => rfl
  | n + 1, hn, hl => by
    rw [readNodes, readNodes_eq hs (by omega) (by omega), ok_bind, if_pos (by omega),
      Elem.point_of_lt elem (by omega), ok_bind, coords_of_le hs, ok_bind, List.take_succ,
      List.getElem?_eq_getElem (by omega), Option.toList_some, List.map_append, List.map_singleton]

theorem contravariantAt_eq {xs : List (Fin spacedim → R)} {dphi : List (List (Fin dim → R))}
    {q : Nat} (X : Nat → Fin spacedim → R) (G : Nat → Fin dim → R) :
    ∀ {N : Nat}, (∀ n < N, xs[n]? = some (X n)) → (∀ n < N, (dphi[n]?.bind (·[q]?)) = some (G n)) →
      contravariantAt xs dphi q N = .ok fun i j => ∑ n : Fin N, X n i * G n j
  | 0, _, _ => by simp [contravariantAt]
  | N + 1, hx, hg => by
    obtain ⟨row, hrow, hq⟩ := Option.bind_eq_some.mp (hg N (by omega))
    rw [contravariantAt, contravariantAt_eq X G (fun n hn => hx n (by omega))
      (fun n hn => hg n (by omega)), ok_bind, getChecked_eq_ok.mpr (hx N (by omega)), ok_bind,
      getChecked_eq_ok.mpr hrow, ok_bind, getChecked_eq_ok.mpr hq, ok_bind]
    simp [Fin.sum_univ_castSucc]

namespace LagrangeJacobianCalculator

variable {c : LagrangeJacobianCalculator R dim spacedim} {elem : Elem R}

/-- **The generic path, evaluated.** For a calculator in its constructed state, on an
element of the key's type, `get_JxW` is the loop over `jacobianOf` of the contravariant
matrices: every read is in range. -/
theorem getJxW_eq_scaleJxW (sqrt : R → R) (hc : c.WF) (hs : spacedim ≤ 3)
    (he : elem.type = c.quadKey.elemType) :
    c.getJxW sqrt elem =
      scaleJxW (fun q => jacobianOf sqrt (c.contravariant elem q)) 0 c.quadWeights := by
  have hn : c.nNodes ≤ elem.nodes.length := by
    rw [elem.length_nodes, hc.nNodes_eq, he]
  rw [getJxW, JacobianCalculator.initJxW_of_length hc.length_JxW, if_pos he, ok_bind,
    readNodes_eq hs (hc.nNodes_eq ▸ getNNodes_le_maxNNodes _) hn, ok_bind]
  refine scaleJxW_congr fun q hq => ?_
  rw [contravariantAt_eq (fun n j => Point.coord (elem.node n) j) (fun n => c.table n q)]
  · rw [ok_bind, Nat.zero_add]; rfl
  · intro n hnN
    simp [Elem.node, List.getElem?_take, hnN, List.getElem?_eq_getElem (Nat.lt_of_lt_of_le hnN hn)]
  · intro n hnN
    have hnd : n < c.dphi.length := hc.length_dphi ▸ hnN
    have hqr : q < (c.dphi[n]).length := by
      rw [hc.length_row _ (List.getElem_mem hnd)]; simpa using hq
    simp [table, List.getElem?_eq_getElem hnd, List.getElem?_eq_getElem hqr]

/-- The table of a constructed calculator holds the shape derivatives at the rule's points;
`N` is the key's node count. -/
theorem contravariant_of_new {quadKey : KeyType} {rule : QRule R}
    {shapeDeriv : Fin (getNNodes quadKey.elemType) → Fin dim → Point R → R}
    (h : new quadKey rule shapeDeriv = .ok c) {N : Nat} (hN : getNNodes quadKey.elemType = N)
    (elem : Elem R) {q : Nat} (hq : q < rule.points.length) :
    c.contravariant elem q = Matrix.of fun (i : Fin spacedim) j => ∑ n : Fin N,
      Point.coord (elem.node n) i * shapeDeriv (Fin.cast hN.symm n) j (rule.points.getD q 0) := by
  subst hN
  unfold new at h
  split_ifs at h
  cases h
  ext i j
  simp [contravariant, table, List.getElem?_eq_getElem hq]

theorem getJxW_of_ne (sqrt : R → R) (he : elem.type ≠ c.quadKey.elemType) :
    c.getJxW sqrt elem = .error .elemTypeMismatch := by
  rw [getJxW, JacobianCalculator.initJxW_of_ne he, error_bind]

/-- `get_JxW` of a calculator built for `quadKey` and `rule`: the prologue's type check, then
the loop over the rule's weights. -/
theorem getJxW_of_new {quadKey : KeyType} {rule : QRule R}
    {shapeDeriv : Fin (getNNodes quadKey.elemType) → Fin dim → Point R → R}
    (h : new quadKey rule shapeDeriv = .ok c) (hs : spacedim ≤ 3) (sqrt : R → R) (elem : Elem R) :
    c.getJxW sqrt elem = if elem.type = quadKey.elemType then
      scaleJxW (fun q => jacobianOf sqrt (c.contravariant elem q)) 0 rule.weights
    else .error .elemTypeMismatch := by
  have hk := new_toJacobianCalculator h
  have hkey : c.quadKey = quadKey := congrArg JacobianCalculator.quadKey hk
  split_ifs with he
  · rw [getJxW_eq_scaleJxW sqrt (new_wf h) hs (hkey ▸ he)]
    exact congrArg _ (congrArg JacobianCalculator.quadWeights hk)
  · exact getJxW_of_ne sqrt (hkey ▸ he)

end LagrangeJacobianCalculator

end IBTK
