import IbtkJacobian.Equivalence

/- What the generic path computes, over every instantiation, every node array and every
   cached table.

   `getJxW_eq_measure`: the generic path fails iff some `D_q ≤ 0` and otherwise returns
   `w_q · D_q`, where `F_q = Σ_n x_n ⊗ G[n][q]` is the contravariant matrix and
   `D_q = det F_q` when `dim = spacedim`, `D_q = √det(F_qᵀ F_q)` otherwise.

   On the manifold instantiations `(1, 2)`, `(1, 3)` and `(2, 3)` the value handed to
   `std::sqrt` is a sum of squares of minors of `F` (`gram_det_one_col`,
   `gram_det_two_col`): never negative, zero exactly when the columns of `F` are dependent
   (`det_transpose_mul_self_ne_zero_iff`), and blind to orientation (`jacobianOf_mul`).

   `getJxW_pad`: a node array padded with zero coordinates gives the same `JxW` in the
   larger ambient space; a flat element seen by a manifold instantiation has
   `J = |det F|`. -/

namespace IBTK

open Matrix

section Field

variable {R : Type} [LinearOrderedField R] {dim spacedim : Nat}

theorem gram_eq_transpose_mul (F : Matrix (Fin spacedim) (Fin dim) R) : gram F = Fᵀ * F := by
  ext i j
  simp [gram, Matrix.mul_apply]

theorem jacobianOf_square {d : Nat} (sqrt : R → R) (F : Matrix (Fin d) (Fin d) R)
    (h1 : 1 ≤ d) (h3 : d ≤ 3) : jacobianOf sqrt F = .ok F.det := by
  rw [jacobianOf, if_pos rfl, determinant_eq_det F h1 h3]

theorem jacobianOf_manifold (sqrt : R → R) (F : Matrix (Fin spacedim) (Fin dim) R)
    (hds : dim ≠ spacedim) (h1 : 1 ≤ dim) (h3 : dim ≤ 3) :
    jacobianOf sqrt F = .ok (sqrt (Fᵀ * F).det) := by
  rw [jacobianOf, if_neg hds, determinant_eq_det (gram F) h1 h3, gram_eq_transpose_mul, map_ok]

theorem gram_pad {s s' : Nat} (hss : s ≤ s') (X : Nat → Fin dim → R)
    (hX : ∀ k, s ≤ k → X k = 0) :
    gram (Matrix.of fun (i : Fin s') j => X i j) = gram (Matrix.of fun (i : Fin s) j => X i j) := by
  funext a b
  simp only [gram, Matrix.of_apply]
  rw [Fin.sum_univ_eq_sum_range (fun k => X k a * X k b),
    Fin.sum_univ_eq_sum_range (fun k => X k a * X k b)]
  refine (Finset.sum_subset (Finset.range_subset.mpr hss) fun k _ hks => ?_).symm
  simp [hX k (by simpa using hks)]

namespace LagrangeJacobianCalculator

theorem contravariant_of_new_eq {s s' : Nat} {quadKey : KeyType} {rule : QRule R}
    {shapeDeriv : Fin (getNNodes quadKey.elemType) → Fin dim → Point R → R}
    {c : LagrangeJacobianCalculator R dim s} {c' : LagrangeJacobianCalculator R dim s'}
    (h : new quadKey rule shapeDeriv = .ok c) (h' : new quadKey rule shapeDeriv = .ok c')
    (elem : Elem R) (q : Nat) :
    c'.contravariant elem q = Matrix.of fun (i : Fin s') j =>
      ∑ n : Fin c.nNodes, Point.coord (elem.node n) i * c.table n q j := by
  unfold new at h h'
  split_ifs at h h'
  cases h; cases h'
  rfl

end LagrangeJacobianCalculator

theorem coord_node_of_flat {s : Nat} {elem : Elem R}
    (hflat : ∀ p ∈ elem.nodes, ∀ i : Fin 3, s ≤ i.val → p i = 0) (n : Nat) {k : Nat}
    (hk : s ≤ k) : Point.coord (elem.node n) k = 0 := by
  unfold Point.coord Elem.node
  split_ifs with h3
  · rcases lt_or_le n elem.nodes.length with hn | hn
    · rw [List.getD_eq_getElem _ _ hn]
      exact hflat _ (List.getElem_mem hn) _ hk
    · rw [List.getD_eq_default _ _ hn]
      rfl
  · rfl

theorem LagrangeJacobianCalculator.contravariant_edge2 {s : Nat} {qt : QuadratureType} {o : Nat}
    {rule : QRule R} {c : LagrangeJacobianCalculator R 1 s}
    (h : LagrangeJacobianCalculator.new ⟨.EDGE2, qt, o⟩ rule
      (fun n _ p => edge2ShapeDeriv n (p 0)) = .ok c) (elem : Elem R) {q : Nat}
    (hq : q < rule.points.length) :
    c.contravariant elem q = Matrix.of fun (i : Fin s) (_ : Fin 1) =>
      (Point.coord (elem.node 1) i - Point.coord (elem.node 0) i) / 2 := by
  rw [LagrangeJacobianCalculator.contravariant_of_new h (show getNNodes .EDGE2 = 2 from rfl) elem hq]
  ext i j
  simp [Fin.sum_univ_two, edge2ShapeDeriv]
  ring

end Field

section Real

variable {dim spacedim : Nat}

/-- **The generic path computes the element's measure.** On every instantiation, for every
node array and every cached table, `get_JxW` fails iff some `D_q ≤ 0`, and otherwise
returns `w_q · D_q`: `D_q = det F_q` when `dim = spacedim`, `√det(F_qᵀ F_q)` otherwise. -/
theorem getJxW_eq_measure :
    (∀ {d : Nat} (c : LagrangeJacobianCalculator ℝ d d) (elem : Elem ℝ),
      (d, d) ∈ instantiations → c.WF → elem.type = c.quadKey.elemType →
      c.getJxW Real.sqrt elem =
        if ∀ q < c.quadWeights.length, 0 < (c.contravariant elem q).det
        then .ok (c.quadWeights.mapIdx fun q w => w * (c.contravariant elem q).det)
        else .error .nonPositiveJacobian) ∧
    (∀ {d s : Nat} (c : LagrangeJacobianCalculator ℝ d s) (elem : Elem ℝ),
      (d, s) ∈ instantiations → d < s → c.WF → elem.type = c.quadKey.elemType →
      let D q := Real.sqrt ((c.contravariant elem q)ᵀ * c.contravariant elem q).det
      c.getJxW Real.sqrt elem =
        if ∀ q < c.quadWeights.length, 0 < D q then .ok (c.quadWeights.mapIdx fun q w => w * D q)
        else .error .nonPositiveJacobian) := by
  constructor
  · intro d c elem hi hc he
    obtain ⟨h1, -, h3⟩ := mem_instantiations hi
    rw [LagrangeJacobianCalculator.getJxW_eq_scaleJxW _ hc h3 he]
    exact scaleJxW_of_ok _ fun q _ => jacobianOf_square _ _ h1 h3
  · intro d s c elem hi hds hc he
    obtain ⟨h1, -, h3⟩ := mem_instantiations hi
    rw [LagrangeJacobianCalculator.getJxW_eq_scaleJxW _ hc h3 he]
    exact scaleJxW_of_ok _ fun q _ => jacobianOf_manifold _ _ hds.ne h1 (by omega)

/-- The segment from `(0, 0)` to `(3, 4)` seen by `<1, 2>` under the one-point rule: `J` is
half its length. -/
theorem jacobianOf_segment {c : LagrangeJacobianCalculator ℝ 1 2}
    (h : LagrangeJacobianCalculator.new ⟨.EDGE2, .QGAUSS, 1⟩ ⟨[0], [2], rfl⟩
      (fun n _ p => edge2ShapeDeriv n (p 0)) = .ok c) :
    jacobianOf Real.sqrt (c.contravariant ⟨.EDGE2, [0, ![3, 4, 0]], rfl⟩ 0) = .ok (5 / 2) := by
  rw [jacobianOf_manifold _ _ (by norm_num) le_rfl (by norm_num),
    LagrangeJacobianCalculator.contravariant_edge2 h _ (by decide)]
  simp [Matrix.det_fin_one, Matrix.mul_apply, Fin.sum_univ_two, Elem.node]
  rw [show (3 : ℝ) / 2 * (3 / 2) + 4 / 2 * (4 / 2) = (5 / 2) ^ 2 by norm_num,
    Real.sqrt_sq (by norm_num)]

/-- The reference `QUAD4` seen by `LagrangeJacobianCalculator<2, 2>`, and the segment from
`(0, 0)` to `(3, 4)` seen by `<1, 2>`, under one-point rules: `J = 1` and `J = 5/2`, and the
returned `JxW` are the area `4` and the length `5`. -/
theorem getJxW_eq_measure_accepted :
    (∃ c : LagrangeJacobianCalculator ℝ 2 2,
      LagrangeJacobianCalculator.new ⟨.QUAD4, .QGAUSS, 1⟩ ⟨[0], [4], rfl⟩ quad4ShapeDeriv =
        .ok c ∧
      c.getJxW Real.sqrt quad4RefElem = .ok [4]) ∧
    ∃ c : LagrangeJacobianCalculator ℝ 1 2,
      LagrangeJacobianCalculator.new ⟨.EDGE2, .QGAUSS, 1⟩ ⟨[0], [2], rfl⟩
        (fun n _ p => edge2ShapeDeriv n (p 0)) = .ok c ∧
      c.getJxW Real.sqrt ⟨.EDGE2, [0, ![3, 4, 0]], rfl⟩ = .ok [5] := by
  constructor
  · obtain ⟨c, h⟩ := @LagrangeJacobianCalculator.new_ok ℝ _ 2 2
      ⟨.QUAD4, .QGAUSS, 1⟩ ⟨[0], [4], rfl⟩ quad4ShapeDeriv
    have hk := LagrangeJacobianCalculator.new_toJacobianCalculator h
    have hJ := lagrange_quad4_jacobianOf h Real.sqrt quad4RefElem (q := 0) (by decide)
    rw [jacobianOf_square _ _ (by norm_num) (by norm_num), quad4RefElem_jacobian] at hJ
    refine ⟨c, h, ?_⟩
    rw [getJxW_eq_measure.1 _ _ (by decide) (LagrangeJacobianCalculator.new_wf h)
      (by rw [hk]; rfl)]
    simp [hk, Except.ok.inj hJ]
  · obtain ⟨c, h⟩ := @LagrangeJacobianCalculator.new_ok ℝ _ 1 2
      ⟨.EDGE2, .QGAUSS, 1⟩ ⟨[0], [2], rfl⟩ (fun n _ p => edge2ShapeDeriv n (p 0))
    have hk := LagrangeJacobianCalculator.new_toJacobianCalculator h
    have hJ := jacobianOf_segment h
    rw [jacobianOf_manifold _ _ (by norm_num) le_rfl (by norm_num)] at hJ
    refine ⟨c, h, ?_⟩
    rw [getJxW_eq_measure.2 _ _ (by decide) (by decide) (LagrangeJacobianCalculator.new_wf h)
      (by rw [hk]; rfl), show c.quadWeights = [2] by rw [hk]; rfl]
    simp only [List.length_singleton, Nat.lt_one_iff, forall_eq, Except.ok.inj hJ,
      List.mapIdx_singleton]
    norm_num

variable {quadKey : KeyType} {rule : QRule ℝ}

theorem jacobianOf_pad {d s s' : Nat}
    {shapeDeriv : Fin (getNNodes quadKey.elemType) → Fin d → Point ℝ → ℝ}
    {c : LagrangeJacobianCalculator ℝ d s} {c' : LagrangeJacobianCalculator ℝ d s'}
    (h : LagrangeJacobianCalculator.new quadKey rule shapeDeriv = .ok c)
    (h' : LagrangeJacobianCalculator.new quadKey rule shapeDeriv = .ok c') (hss : s ≤ s')
    (hds' : d ≠ s') {elem : Elem ℝ} (hflat : ∀ p ∈ elem.nodes, ∀ i : Fin 3, s ≤ i.val → p i = 0)
    (q : Nat) :
    jacobianOf Real.sqrt (c'.contravariant elem q) =
      Real.sqrt <$> determinant (gram (c.contravariant elem q)) := by
  have hX : ∀ k, s ≤ k →
      (fun j => ∑ n : Fin c.nNodes, Point.coord (elem.node n) k * c.table n q j) = 0 :=
    fun k hk => funext fun j => by simp [coord_node_of_flat hflat _ hk]
  rw [jacobianOf, if_neg hds', LagrangeJacobianCalculator.contravariant_of_new_eq h h' elem q,
    gram_pad hss _ hX]
  rfl

/-- **Padding with zero coordinates changes nothing.** Built from one key, rule and table,
a manifold instantiation returns on a zero-padded element what the smaller instantiation
returns; and where the smaller one is square, the padded path computes `J = |det F|` at
every point, so its `get_JxW` is the loop over `|det F_q|`, and it returns the square path's
`JxW` whenever the square path accepts. -/
theorem getJxW_pad :
    (∀ {d s s' : Nat} (shapeDeriv : Fin (getNNodes quadKey.elemType) → Fin d → Point ℝ → ℝ)
      (c : LagrangeJacobianCalculator ℝ d s) (c' : LagrangeJacobianCalculator ℝ d s')
      (elem : Elem ℝ), (d, s) ∈ instantiations → (d, s') ∈ instantiations → d < s → s < s' →
      LagrangeJacobianCalculator.new quadKey rule shapeDeriv = .ok c →
      LagrangeJacobianCalculator.new quadKey rule shapeDeriv = .ok c' →
      (∀ p ∈ elem.nodes, ∀ i : Fin 3, s ≤ i.val → p i = 0) →
      c'.getJxW Real.sqrt elem = c.getJxW Real.sqrt elem) ∧
    (∀ {d s' : Nat} (shapeDeriv : Fin (getNNodes quadKey.elemType) → Fin d → Point ℝ → ℝ)
      (c : LagrangeJacobianCalculator ℝ d d) (c' : LagrangeJacobianCalculator ℝ d s')
      (elem : Elem ℝ), (d, d) ∈ instantiations → (d, s') ∈ instantiations → d < s' →
      LagrangeJacobianCalculator.new quadKey rule shapeDeriv = .ok c →
      LagrangeJacobianCalculator.new quadKey rule shapeDeriv = .ok c' →
      (∀ p ∈ elem.nodes, ∀ i : Fin 3, d ≤ i.val → p i = 0) →
      (∀ q, jacobianOf Real.sqrt (c'.contravariant elem q) = .ok |(c.contravariant elem q).det|) ∧
      (c'.getJxW Real.sqrt elem =
        if elem.type = quadKey.elemType then
          if ∀ q < rule.weights.length, 0 < |(c.contravariant elem q).det|
          then .ok (rule.weights.mapIdx fun q w => w * |(c.contravariant elem q).det|)
          else .error .nonPositiveJacobian
        else .error .elemTypeMismatch) ∧
      ∀ v, c.getJxW Real.sqrt elem = .ok v → c'.getJxW Real.sqrt elem = .ok v) := by
  constructor
  · intro d s s' sd c c' elem hi hi' hds hss h h' hflat
    rw [LagrangeJacobianCalculator.getJxW_of_new h' (mem_instantiations hi').2.2,
      LagrangeJacobianCalculator.getJxW_of_new h (mem_instantiations hi).2.2]
    split_ifs
    · exact scaleJxW_congr fun q _ => by
        rw [jacobianOf_pad h h' hss.le (by omega) hflat, jacobianOf, if_neg hds.ne]
    · rfl
  · intro d s' sd c c' elem hi hi' hds h h' hflat
    obtain ⟨h1, -, h3⟩ := mem_instantiations hi'
    have hsq : ∀ q, jacobianOf Real.sqrt (c.contravariant elem q) =
        .ok (c.contravariant elem q).det := fun q => jacobianOf_square _ _ h1 (by omega)
    have hJ : ∀ q, jacobianOf Real.sqrt (c'.contravariant elem q) =
        .ok |(c.contravariant elem q).det| := fun q => by
      rw [jacobianOf_pad h h' hds.le hds.ne hflat, determinant_eq_det _ h1 (by omega),
        gram_eq_transpose_mul, map_ok, Matrix.det_mul, Matrix.det_transpose, ← sq,
        Real.sqrt_sq_eq_abs]
    refine ⟨hJ, by rw [LagrangeJacobianCalculator.getJxW_of_new h' h3,
      scaleJxW_of_ok _ fun q _ => hJ q], fun v hv => ?_⟩
    rw [LagrangeJacobianCalculator.getJxW_of_new h (by omega)] at hv
    rw [LagrangeJacobianCalculator.getJxW_of_new h' h3, ← hv]
    split_ifs at hv ⊢
    rw [scaleJxW_of_ok _ fun q _ => hsq q] at hv
    split_ifs at hv with hpos
    exact scaleJxW_congr fun q hq => by rw [Nat.zero_add, hJ, abs_of_pos (hpos q hq), hsq]

/-- The segment from `(0, 0)` to `(3, 4)` seen by `<1, 2>` and `<1, 3>`, and the segment from
`1` to `4` on the first axis seen by `<1, 1>` and `<1, 2>`: the padded path returns
`JxW = [3]`, the segment's length. -/
theorem getJxW_pad_edge2 :
    ∃ (c1 : LagrangeJacobianCalculator ℝ 1 1) (c2 : LagrangeJacobianCalculator ℝ 1 2)
      (c3 : LagrangeJacobianCalculator ℝ 1 3),
      LagrangeJacobianCalculator.new ⟨.EDGE2, .QGAUSS, 1⟩ ⟨[0], [2], rfl⟩
        (fun n _ p => edge2ShapeDeriv n (p 0)) = .ok c1 ∧
      LagrangeJacobianCalculator.new ⟨.EDGE2, .QGAUSS, 1⟩ ⟨[0], [2], rfl⟩
        (fun n _ p => edge2ShapeDeriv n (p 0)) = .ok c2 ∧
      LagrangeJacobianCalculator.new ⟨.EDGE2, .QGAUSS, 1⟩ ⟨[0], [2], rfl⟩
        (fun n _ p => edge2ShapeDeriv n (p 0)) = .ok c3 ∧
      c3.getJxW Real.sqrt ⟨.EDGE2, [0, ![3, 4, 0]], rfl⟩ =
        c2.getJxW Real.sqrt ⟨.EDGE2, [0, ![3, 4, 0]], rfl⟩ ∧
      c2.getJxW Real.sqrt ⟨.EDGE2, [![1, 0, 0], ![4, 0, 0]], rfl⟩ = .ok [3] := by
  obtain ⟨c1, h1⟩ := @LagrangeJacobianCalculator.new_ok ℝ _ 1 1
    ⟨.EDGE2, .QGAUSS, 1⟩ ⟨[0], [2], rfl⟩ (fun n _ p => edge2ShapeDeriv n (p 0))
  obtain ⟨c2, h2⟩ := @LagrangeJacobianCalculator.new_ok ℝ _ 1 2
    ⟨.EDGE2, .QGAUSS, 1⟩ ⟨[0], [2], rfl⟩ (fun n _ p => edge2ShapeDeriv n (p 0))
  obtain ⟨c3, h3⟩ := @LagrangeJacobianCalculator.new_ok ℝ _ 1 3
    ⟨.EDGE2, .QGAUSS, 1⟩ ⟨[0], [2], rfl⟩ (fun n _ p => edge2ShapeDeriv n (p 0))
  refine ⟨c1, c2, c3, h1, h2, h3, getJxW_pad.1 _ _ _ _ (by decide) (by decide) (by decide)
    (by decide) h2 h3 fun p hp i hi => ?_, ?_⟩
  · obtain rfl : i = 2 := Fin.ext (by omega)
    simp only [List.mem_cons, List.mem_singleton, List.not_mem_nil, or_false] at hp
    rcases hp with rfl | rfl <;> rfl
  · rw [(getJxW_pad.2 _ _ _ _ (by decide) (by decide) (by decide) h1 h2 fun p hp i hi => ?_).2.1]
    · simp [LagrangeJacobianCalculator.contravariant_edge2 h1 _ (q := 0) (by decide),
        Matrix.det_fin_one, Elem.node]
      norm_num [abs_of_pos]
    · obtain rfl | rfl : i = 1 ∨ i = 2 := by omega
      all_goals
        simp only [List.mem_cons, List.mem_singleton, List.not_mem_nil, or_false] at hp
        rcases hp with rfl | rfl <;> rfl

end Real

end IBTK
