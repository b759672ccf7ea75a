import Microbench.Proofs.Float.Monotone

/-!
# Arithmetic of single precision

Products, sums and differences are rounded as in every format, and are infinite where the exponent
gets too large. Neither changes the order, and a difference is zero for equal numbers only, since
the least number of the format is no larger than any other difference.

Results:

* `single_le_iff`, `single_beq_iff`: finite numbers are compared by what they mean.
* `Result.le`: results are compared by what was rounded.
* `mul_result`, `add_result`, `sub_result`: what is rounded.
* `single_add_le_add`: sums of what is not negative, infinities included.
* `sub_abs_le`: the error of two numbers is the same both ways round.
* `sub_abs_pos`: different numbers have an error.
-/
namespace Microbench

open Float.Model Float.Model.UnpackedFloat

/-! ## The limit -/

/-- A number whose exponent is too large is infinite. -/
def limited : UnpackedFloat → UnpackedFloat
  | .finite s m e pos => if e ≤ 104 then .finite s m e pos else .infinity s
  | u => u

section Limit

variable {u u' : UnpackedFloat}

theorem single_pack_canonical (h : Canonical Format.binary32 u) :
    (Float32.Model.pack u).unpack = limited u := by
  cases u with
  | infinity => cases h
  | notANumber => cases h
  | zero s => cases s <;> rfl
  | finite s m e pos =>
    by_cases room : e ≤ 104
    · rw [limited, if_pos room]
      refine single_unpack_pack h ?_
      show m < Nat.pow 2 (128 - e).toNat
      calc m < 2 ^ 24 := h.1
        _ ≤ 2 ^ (128 - e).toNat := Nat.pow_le_pow_right Nat.two_pos (by omega)
    · have fits : 2 ^ 8 ≤ (e + 127 + 23).toNat + 1 := by omega
      have packed : UnpackedFloat.pack Format.binary32 (.finite s m e pos)
          = UnpackedFloat.pack Format.binary32 (.infinity s) := if_pos fits
      rw [limited, if_neg room, ← single_pack_infinity s]
      exact congrArg (UnpackedFloat.unpack Format.binary32) packed

/-- What is limited is stored as it is. -/
theorem single_pack_limited (h : Canonical Format.binary32 u) :
    (Float32.Model.pack (limited u)).unpack = limited u := by
  cases u with
  | infinity => cases h
  | notANumber => cases h
  | zero s => cases s <;> rfl
  | finite s m e pos =>
    by_cases room : e ≤ 104
    · have kept : limited (.finite s m e pos) = .finite s m e pos := if_pos room
      rw [kept, single_pack_canonical h, kept]
    · have infinite : limited (.finite s m e pos) = .infinity s := if_neg room
      rw [infinite, single_pack_infinity]

theorem limited_abs (u : UnpackedFloat) : (limited u).abs = limited u.abs := by
  cases u with
  | finite s m e pos =>
    show (if e ≤ 104 then _ else _ : UnpackedFloat).abs = if e ≤ 104 then _ else _
    split <;> rfl
  | _ => rfl

theorem limited_isNaN (h : Canonical Format.binary32 u) : (limited u).isNaN = false := by
  cases u with
  | notANumber => cases h
  | finite s m e =>
    rw [limited]
    split <;> rfl
  | _ => rfl

theorem rank_le_infinity (u : UnpackedFloat) : rank u ≤ rank (.infinity .positive) := by
  cases u with
  | finite s => cases s <;> exact (lex_lt.2 (.inl (by decide))).le
  | infinity s => cases s <;> decide
  | _ => exact (lex_lt.2 (.inl (by decide))).le

theorem Rounded.limited_le {r r' : ℚ} (h : Rounded Format.binary32 r u)
    (h' : Rounded Format.binary32 r' u') (le : r ≤ r') : rank (limited u) ≤ rank (limited u') := by
  have order := h.mono h' le
  obtain ⟨q, t, -, value⟩ := h.value
  obtain ⟨q', t', -, value'⟩ := h'.value
  rcases nonneg_canonical h'.canonical value' (by positivity) with
    ⟨s', rfl, -⟩ | ⟨m', e', pos', rfl, -⟩
  · rcases nonneg_canonical h.canonical value (by positivity) with ⟨s, rfl, -⟩ | ⟨m, e, pos, rfl, -⟩
    · exact order
    · exact absurd order (rank_zero_lt pos s').not_ge
  · -- If the larger result is within the limit, so is the smaller one, by its exponent.
    by_cases room : e' ≤ 104
    · have unlimited : limited u = u := by
        rcases nonneg_canonical h.canonical value (by positivity) with
          ⟨s, rfl, -⟩ | ⟨m, e, pos, rfl, -⟩
        · rfl
        · have lower : e ≤ e' := by
            by_contra more
            exact order.not_gt (lex_lt.2 (.inr ⟨rfl, .inl (not_le.1 more)⟩))
          exact if_pos (lower.trans room)
      rw [unlimited, limited, if_pos room]
      exact order
    · have infinite : limited (.finite .positive m' e' pos') = .infinity .positive := if_neg room
      rw [infinite]
      exact rank_le_infinity _

end Limit

/-- A finite number is within the limit. -/
theorem single_limited {x : Float32} (h : x.isFinite = true) :
    limited x.toModel.unpack = x.toModel.unpack := by
  have bias : Format.binary32.exponentBias = 127 := rfl
  have finite : x.toModel.unpack.isFinite = true := h
  unfold Float32.Model.unpack UnpackedFloat.unpack at finite ⊢
  dsimp only at finite ⊢
  split at finite
  · split at finite <;> cases finite
  rename_i top
  have field : (@unpackExponent Format.binary32 x.toModel.toBits.toBitVec).toNat < 255 := by
    refine Nat.lt_of_le_of_ne (Nat.le_of_lt_succ (BitVec.isLt _)) fun all => top ?_
    exact BitVec.eq_of_toNat_eq all
  rw [if_neg top, bias]
  split
  · next bottom =>
    split
    · rfl
    · exact if_pos (by rw [bottom]; decide)
  · exact if_pos (by omega)

/-! ## Comparing -/

section Comparing

variable {x y z : Float32} {v w : ℚ}

theorem single_number (h : x.isFinite = true) : ∃ v, number x.toModel.unpack = some v := by
  have finite : x.toModel.unpack.isFinite = true := h
  cases hu : x.toModel.unpack with
  | infinity => rw [hu] at finite; cases finite
  | notANumber => rw [hu] at finite; cases finite
  | _ => exact ⟨_, rfl⟩

theorem canonical_of_number (h : number x.toModel.unpack = some v) :
    Canonical Format.binary32 x.toModel.unpack :=
  single_canonical (isFinite_of_number h)

theorem isNaN_of_number (h : number x.toModel.unpack = some v) : x.isNaN = false := by
  show x.toModel.unpack.isNaN = false
  cases hu : x.toModel.unpack with
  | notANumber => rw [hu] at h; cases h
  | _ => rfl

theorem single_le_iff (hv : number x.toModel.unpack = some v)
    (hw : number y.toModel.unpack = some w) : x ≤ y ↔ v ≤ w := by
  rw [single_le, rank_le_iff (canonical_of_number hv) (canonical_of_number hw) hv hw,
    and_iff_right (isNaN_of_number hv), and_iff_right (isNaN_of_number hw)]

theorem single_lt_iff (hv : number x.toModel.unpack = some v)
    (hw : number y.toModel.unpack = some w) : x < y ↔ v < w := by
  rw [single_lt, and_iff_right (isNaN_of_number hv), and_iff_right (isNaN_of_number hw), ← not_le,
    rank_le_iff (canonical_of_number hw) (canonical_of_number hv) hw hv, not_le]

theorem single_beq_iff (hv : number x.toModel.unpack = some v)
    (hw : number y.toModel.unpack = some w) : (x == y) = true ↔ v = w := by
  rw [single_beq, and_iff_right (isNaN_of_number hv), and_iff_right (isNaN_of_number hw),
    le_antisymm_iff, le_antisymm_iff,
    rank_le_iff (canonical_of_number hv) (canonical_of_number hw) hv hw,
    rank_le_iff (canonical_of_number hw) (canonical_of_number hv) hw hv]

theorem single_nonneg_iff (hv : number x.toModel.unpack = some v) : 0 ≤ x ↔ 0 ≤ v :=
  single_le_iff rfl hv

theorem single_le_trans (h : x ≤ y) (h' : y ≤ z) : x ≤ z := by
  obtain ⟨hx, -, le⟩ := single_le.1 h
  obtain ⟨-, hz, le'⟩ := single_le.1 h'
  exact single_le.2 ⟨hx, hz, le.trans le'⟩

theorem single_le_refl (hx : x.isNaN = false) : x ≤ x := single_le.2 ⟨hx, hx, le_rfl⟩

theorem single_lt_of_lt_of_le (h : x < y) (h' : y ≤ z) : x < z := by
  obtain ⟨hx, -, lt⟩ := single_lt.1 h
  obtain ⟨-, hz, le⟩ := single_le.1 h'
  exact single_lt.2 ⟨hx, hz, lt.trans_le le⟩

theorem single_not_lt (h : x ≤ y) : ¬y < x := fun lt =>
  (single_lt.1 lt).2.2.not_ge (single_le.1 h).2.2

/-- A number that is not negative is finite or infinite. -/
theorem finite_or_infinite (nonneg : 0 ≤ x) :
    x.isFinite = true ∨ x.toModel.unpack = .infinity .positive := by
  obtain ⟨-, hx, le⟩ := single_le.1 nonneg
  by_cases finite : x.isFinite = true
  · exact .inl finite
  · obtain ⟨s, stored⟩ := unpack_of_isInf (isInf_of_not_isFinite hx finite)
    rw [stored] at le ⊢
    cases s with
    | positive => exact .inr rfl
    | negative => exact absurd le (by decide)

theorem isFinite_of_le (nonneg : 0 ≤ x) (le : x ≤ y) (finite : y.isFinite = true) :
    x.isFinite = true := by
  refine (finite_or_infinite nonneg).resolve_right fun infinite => ?_
  have above := (single_le.1 le).2.2
  rw [infinite] at above
  have finite' : y.toModel.unpack.isFinite = true := finite
  rw [eq_infinity_of_rank_le above] at finite'
  cases finite'

end Comparing

/-! ## Magnitudes -/

section Magnitudes

variable {x : Float32} {v : ℚ}

theorem abs_number (h : number x.toModel.unpack = some v) :
    number x.abs.toModel.unpack = some |v| := by
  have canonical := canonical_of_number h
  have stored : x.abs.toModel.unpack = x.toModel.unpack.abs := by
    show (Float32.Model.pack x.toModel.unpack.abs).unpack = _
    rw [single_pack_canonical (canonical_abs.2 canonical), ← limited_abs,
      single_limited (isFinite_of_number h)]
  rw [stored]
  exact number_abs h

end Magnitudes

/-! ## Results -/

/-- What single precision gives for a number that is not negative. -/
def Result (r : ℚ) (x : Float32) : Prop :=
  ∃ u, Rounded Format.binary32 r u ∧ x.toModel.unpack = limited u

section Results

variable {x x' y y' : Float32} {u : UnpackedFloat} {r r' v w : ℚ}

theorem Result.isNaN (h : Result r x) : x.isNaN = false := by
  obtain ⟨u, rounded, stored⟩ := h
  show x.toModel.unpack.isNaN = false
  rw [stored]
  exact limited_isNaN rounded.canonical

theorem Result.le (h : Result r x) (h' : Result r' y) (le : r ≤ r') : x ≤ y := by
  refine single_le.2 ⟨h.isNaN, h'.isNaN, ?_⟩
  obtain ⟨u, rounded, stored⟩ := h
  obtain ⟨u', rounded', stored'⟩ := h'
  rw [stored, stored']
  exact rounded.limited_le rounded' le

theorem zero_result : Result 0 0 := ⟨.zero .positive, exact_rounded trivial rfl le_rfl, rfl⟩

theorem packed_result (h : Rounded Format.binary32 r u)
    (packed : x.toModel = Float32.Model.pack u) : Result r x := by
  refine ⟨u, h, ?_⟩
  rw [packed]
  exact single_pack_canonical h.canonical

theorem mul_result (hv : number x.toModel.unpack = some v) (hw : number y.toModel.unpack = some w)
    (nonneg : 0 ≤ v) (nonneg' : 0 ≤ w) : Result (v * w) (x * y) :=
  packed_result (mul_rounded (canonical_of_number hv) (canonical_of_number hw) hv hw nonneg
    nonneg') rfl

theorem add_result (hv : number x.toModel.unpack = some v) (hw : number y.toModel.unpack = some w)
    (nonneg : 0 ≤ v) (nonneg' : 0 ≤ w) : Result (v + w) (x + y) :=
  packed_result (add_rounded (canonical_of_number hv) (canonical_of_number hw) hv hw nonneg
    nonneg') rfl

theorem sub_result (hv : number x.toModel.unpack = some v)
    (hw : number y.toModel.unpack = some w) : Result |v - w| (x - y).abs := by
  have rounded := sub_rounded (canonical_of_number hv) (canonical_of_number hw) hv hw
  refine ⟨_, rounded, ?_⟩
  -- The difference is packed twice, before and after its sign is dropped.
  show (Float32.Model.pack (Float32.Model.pack (UnpackedFloat.sub Format.binary32 x.toModel.unpack
    y.toModel.unpack)).unpack.abs).unpack = _
  rw [single_pack_canonical (canonical_abs.1 rounded.canonical), limited_abs,
    single_pack_limited rounded.canonical]

/-! ### Sums -/

theorem add_infinite (hx : x.isFinite = true) (hy : y.toModel.unpack = .infinity .positive) :
    (x + y).toModel.unpack = .infinity .positive := by
  show (Float32.Model.pack (UnpackedFloat.add Format.binary32 x.toModel.unpack
    y.toModel.unpack)).unpack = _
  rw [hy, add_infinity hx]
  exact single_pack_infinity .positive

theorem isNaN_of_infinite (h : x.toModel.unpack = .infinity .positive) : x.isNaN = false := by
  show x.toModel.unpack.isNaN = false
  rw [h]
  rfl

theorem add_isNaN (hx : x.isFinite = true) (nonneg : 0 ≤ x) (nonneg' : 0 ≤ y) :
    (x + y).isNaN = false := by
  rcases finite_or_infinite nonneg' with hy | infinite
  · obtain ⟨a, ha⟩ := single_number hx
    obtain ⟨b, hb⟩ := single_number hy
    exact (add_result ha hb ((single_nonneg_iff ha).1 nonneg)
      ((single_nonneg_iff hb).1 nonneg')).isNaN
  · exact isNaN_of_infinite (add_infinite hx infinite)

theorem single_add_le_add (hx : x.isFinite = true) (hx' : x'.isFinite = true) (nonneg : 0 ≤ x)
    (le : x ≤ x') (nonneg' : 0 ≤ y) (le' : y ≤ y') : x + y ≤ x' + y' := by
  rcases finite_or_infinite (single_le_trans nonneg' le') with hy' | infinite
  · obtain ⟨a, ha⟩ := single_number hx
    obtain ⟨a', ha'⟩ := single_number hx'
    obtain ⟨b, hb⟩ := single_number (isFinite_of_le nonneg' le' hy')
    obtain ⟨b', hb'⟩ := single_number hy'
    rw [single_nonneg_iff ha] at nonneg
    rw [single_le_iff ha ha'] at le
    rw [single_nonneg_iff hb] at nonneg'
    rw [single_le_iff hb hb'] at le'
    exact (add_result ha hb nonneg nonneg').le
      (add_result ha' hb' (nonneg.trans le) (nonneg'.trans le')) (add_le_add le le')
  · -- Only the second summand can be infinite. The larger sum is then, and nothing is above it.
    have sum := add_infinite hx' infinite
    refine single_le.2 ⟨add_isNaN hx nonneg nonneg', isNaN_of_infinite sum, ?_⟩
    rw [sum]
    exact rank_le_infinity _

/-! ### Differences -/

theorem sub_abs_le (hx : x.isFinite = true) (hy : y.isFinite = true) :
    (x - y).abs ≤ (y - x).abs := by
  obtain ⟨a, ha⟩ := single_number hx
  obtain ⟨b, hb⟩ := single_number hy
  exact (sub_result ha hb).le (sub_result hb ha) (abs_sub_comm a b).le

theorem sub_abs_pos (hx : x.isFinite = true) (hy : y.isFinite = true) (ne : ¬(x == y) = true) :
    0 < (x - y).abs := by
  obtain ⟨a, ha⟩ := single_number hx
  obtain ⟨b, hb⟩ := single_number hy
  rw [single_beq_iff ha hb] at ne
  let least : UnpackedFloat := .finite .positive 1 Format.binary32.minExponent Nat.one_pos
  have smallest : Rounded Format.binary32 (2 ^ Format.binary32.minExponent) least :=
    exact_rounded ⟨by decide, le_rfl, .inr rfl⟩ (by simp [least, number, Sign.apply])
      (by positivity)
  -- Rounding keeps the error at or above the least number, which is stored as it is.
  have difference := (sub_result ha hb).isNaN
  obtain ⟨u, rounded, stored⟩ := sub_result ha hb
  refine single_lt.2 ⟨rfl, difference, ?_⟩
  rw [stored]
  calc rank (0 : Float32).toModel.unpack
      < rank (limited least) := rank_zero_lt Nat.one_pos .positive
    _ ≤ rank (limited u) := smallest.limited_le rounded
        (least_le_sub (canonical_of_number ha) (canonical_of_number hb) ha hb ne)

end Results

end Microbench
