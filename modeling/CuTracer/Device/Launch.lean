import Mathlib.Data.Nat.Bitwise

/-! The launch of a kernel on the device: a grid of CTAs, some of which form a cluster, and
the threads of a CTA, 32 of which form a warp. -/

namespace CuTracer.Device

structure Dim3 where
  x : ℕ
  y : ℕ
  z : ℕ
  deriving DecidableEq

namespace Dim3

def volume (d : Dim3) : ℕ := d.x * d.y * d.z

/-- An index below every dimension. -/
structure Contains (d i : Dim3) : Prop where
  x : i.x < d.x
  y : i.y < d.y
  z : i.z < d.z

/-- The position of an index; `x` runs fastest. -/
def linear (d i : Dim3) : ℕ := (i.z * d.y + i.y) * d.x + i.x

theorem Contains.linear_lt {d i : Dim3} (h : d.Contains i) : d.linear i < d.volume := by
  have hrow : i.z * d.y + i.y < d.z * d.y := by
    have hz : (i.z + 1) * d.y ≤ d.z * d.y := Nat.mul_le_mul_right _ h.z
    have hy := h.y
    rw [Nat.add_mul, Nat.one_mul] at hz
    omega
  have hplane : (i.z * d.y + i.y + 1) * d.x ≤ d.z * d.y * d.x := Nat.mul_le_mul_right _ hrow
  have hx := h.x
  have hvolume : d.z * d.y * d.x = d.volume := by
    rw [volume, Nat.mul_comm, Nat.mul_comm d.z, ← Nat.mul_assoc]
  rw [Nat.add_mul, Nat.one_mul, hvolume] at hplane
  rw [linear]
  omega

/-- Every position has an index. -/
theorem exists_linear {d : Dim3} {n : ℕ} (h : n < d.volume) : ∃ i, d.Contains i ∧ d.linear i = n := by
  have hx : 0 < d.x := by
    by_contra hx
    have hzero : d.x = 0 := by omega
    simp [volume, hzero] at h
  have hy : 0 < d.y := by
    by_contra hy
    have hzero : d.y = 0 := by omega
    simp [volume, hzero] at h
  have hz : n / d.x / d.y < d.z := by
    rw [Nat.div_div_eq_div_mul, Nat.div_lt_iff_lt_mul (Nat.mul_pos hx hy), Nat.mul_comm]
    exact h
  refine ⟨⟨n % d.x, n / d.x % d.y, n / d.x / d.y⟩, ⟨Nat.mod_lt _ hx, Nat.mod_lt _ hy, hz⟩, ?_⟩
  simp only [linear, Nat.div_add_mod']

end Dim3

/-- A launch whose grid is made of whole clusters; their size is an `int`. -/
structure Launch where
  grid : Dim3
  block : Dim3
  cluster : Dim3
  grid_pos : grid.Contains ⟨0, 0, 0⟩
  whole_clusters : cluster.x ∣ grid.x ∧ cluster.y ∣ grid.y ∧ cluster.z ∣ grid.z
  cluster_size : cluster.volume < 2 ^ 31

/-- A thread of a launch, by its CTA and its index in the CTA. -/
structure Thread (launch : Launch) where
  cta : Dim3
  index : Dim3
  cta_mem : launch.grid.Contains cta
  index_mem : launch.block.Contains index

namespace Thread

variable {launch : Launch}

variable (t : Thread launch)

/-- `%cluster_ctaid`. -/
def clusterCtaid : Dim3 :=
  ⟨t.cta.x % launch.cluster.x, t.cta.y % launch.cluster.y, t.cta.z % launch.cluster.z⟩

/-- The linear index of a thread in its block, in 32 bits. -/
def linearId : UInt32 :=
  (UInt32.ofNat t.index.z * UInt32.ofNat launch.block.y + UInt32.ofNat t.index.y) *
    UInt32.ofNat launch.block.x + UInt32.ofNat t.index.x

def warp : UInt32 := t.linearId >>> 5

theorem toNat_warp (t : Thread launch) :
    t.warp.toNat = launch.block.linear t.index % 2 ^ 32 / 32 := by
  have hid : t.linearId = UInt32.ofNat (launch.block.linear t.index) := by
    simp only [linearId, Dim3.linear, UInt32.ofNat_add, UInt32.ofNat_mul]
  rw [warp, UInt32.toNat_shiftRight, hid, UInt32.toNat_ofNat']
  exact Nat.shiftRight_eq_div_pow _ 5

/-- The warp of a thread starts below the size of the block. -/
theorem warp_lt : 32 * t.warp.toNat < launch.block.volume := by
  have hlinear := t.index_mem.linear_lt
  have hmod := Nat.mod_le (launch.block.linear t.index) (2 ^ 32)
  rw [toNat_warp]
  omega

end Thread

namespace Launch

variable (launch : Launch)

theorem cluster_le : launch.cluster.x ≤ launch.grid.x ∧ launch.cluster.y ≤ launch.grid.y ∧
    launch.cluster.z ≤ launch.grid.z :=
  ⟨Nat.le_of_dvd launch.grid_pos.x launch.whole_clusters.1,
    Nat.le_of_dvd launch.grid_pos.y launch.whole_clusters.2.1,
    Nat.le_of_dvd launch.grid_pos.z launch.whole_clusters.2.2⟩

variable {launch}

/-- A launch has a thread of every warp that starts in its block. -/
theorem exists_warp {warp : ℕ} (hwarp : warp < 32) (h : 32 * warp < launch.block.volume) {cta : Dim3}
    (hcta : launch.grid.Contains cta) : ∃ t : Thread launch, t.cta = cta ∧ t.warp.toNat = warp := by
  obtain ⟨i, hi, hlinear⟩ := Dim3.exists_linear h
  refine ⟨⟨cta, i, hcta, hi⟩, rfl, ?_⟩
  rw [Thread.toNat_warp, hlinear]
  omega

/-- Every position in a cluster is that of a CTA of the grid. -/
theorem exists_cta {rank : ℕ} (h : rank < launch.cluster.volume) :
    ∃ cta, launch.grid.Contains cta ∧ ∀ t : Thread launch, t.cta = cta →
      launch.cluster.linear t.clusterCtaid = rank := by
  obtain ⟨i, hi, hlinear⟩ := Dim3.exists_linear h
  obtain ⟨hx, hy, hz⟩ := launch.cluster_le
  refine ⟨i, ⟨Nat.lt_of_lt_of_le hi.x hx, Nat.lt_of_lt_of_le hi.y hy, Nat.lt_of_lt_of_le hi.z hz⟩,
    fun t ht => ?_⟩
  rw [Thread.clusterCtaid, ht, Nat.mod_eq_of_lt hi.x, Nat.mod_eq_of_lt hi.y, Nat.mod_eq_of_lt hi.z]
  exact hlinear

end Launch

/-! ### Warp masks -/

theorem shiftRight_and_one (mask warp : UInt32) (h : warp.toNat < 32) :
    ((mask >>> warp) &&& 1 ≠ 0) ↔ mask.toNat.testBit warp.toNat = true := by
  rw [← UInt32.toNat_inj.ne, UInt32.toNat_and, UInt32.toNat_shiftRight, Nat.mod_eq_of_lt h,
    Nat.testBit, Nat.and_comm]
  simp

theorem and_shiftLeft_one (mask warp : UInt32) (h : warp.toNat < 32) :
    (mask &&& (1 <<< warp) ≠ 0) ↔ mask.toNat.testBit warp.toNat = true := by
  have hpow : 2 ^ warp.toNat < 2 ^ 32 := Nat.pow_lt_pow_right (by decide) h
  have hbit : ((1 : UInt32) <<< warp).toNat = 2 ^ warp.toNat := by
    rw [UInt32.toNat_shiftLeft, Nat.mod_eq_of_lt h, Nat.shiftLeft_eq]
    simpa using Nat.mod_eq_of_lt hpow
  rw [← UInt32.toNat_inj.ne, UInt32.toNat_and, hbit, Nat.and_two_pow]
  cases mask.toNat.testBit warp.toNat <;> simp

end CuTracer.Device
