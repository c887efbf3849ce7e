import CuTracer.Plan.Configs
import Mathlib.Algebra.Group.Prod

/-! Kernels and documents. Reading a kernel reads its configurations and counts them
and their points; reading a file checks that its documents agree on the plan's
identifier and policy and reads the kernels of all of them. -/

namespace CuTracer.Plan

variable {v : Vendor} {j : Json}

/-! ### Counts -/

/-- The limits on a whole plan. -/
def Counts.Within (c : Counts) : Prop := c.1 ≤ kConfigsMax ∧ c.2 ≤ kPointsMax

theorem Counts.Within.of_add {a b : Counts} (h : Counts.Within (a + b)) : Counts.Within a :=
  ⟨le_trans (Nat.le_add_right _ _) h.1, le_trans (Nat.le_add_right _ _) h.2⟩

theorem within_zero : Counts.Within 0 := ⟨Nat.zero_le _, Nat.zero_le _⟩

def configCount (j : Json) : Counts := (1, pointCount j)

def kernelCount (j : Json) : Counts := ((itemsAt j "configs").map configCount).sum

theorem addConfig_ok {cs cs' : List Config} {c c' : Counts} (hc : c.Within) :
    addConfig v (cs, c) j = .ok (cs', c') ↔
      ∃ d, readConfig v j = .ok d ∧ cs' = cs ++ [d] ∧ c' = c + configCount j ∧ c'.Within := by
  obtain ⟨n, m⟩ := c
  have hm : m ≤ kPointsMax := hc.2
  unfold addConfig
  split
  · next hfull =>
    refine ⟨fun h => absurd h fail_ne, ?_⟩
    rintro ⟨d, -, -, rfl, hwithin⟩
    exact absurd hwithin.1 (by simpa [configCount] using hfull)
  · next hroom =>
    constructor
    · intro h
      obtain ⟨⟨d, m'⟩, hd, h⟩ := bind_ok h
      cases h
      obtain ⟨hread, rfl, hle⟩ := (config_iff hm).mp hd
      exact ⟨d, hread, rfl, rfl, by simpa using hroom, hle⟩
    · rintro ⟨d, hread, rfl, rfl, hwithin⟩
      rw [(config_iff hm).mpr ⟨hread, rfl, hwithin.2⟩]
      rfl

/-! ### Kernels -/

def IsTarget (t : String) : Prop := target (.str t) = .ok t

structure Kernel.GoodFields (k : Kernel) : Prop where
  entry : IsText k.entry
  target : IsTarget k.target
  text : IsText k.cubinSha256
  size : k.cubinSha256.utf8ByteSize = 64
  hex : hex k.cubinSha256.toList = true

theorem isTarget_of_target {t : String} (h : target j = .ok t) : IsTarget t := by
  have hj : j = .str t := by
    obtain ⟨value, hvalue, h'⟩ := bind_ok h
    simp only at h'
    split at h'
    · exact absurd h' fail_ne
    split at h'
    all_goals split at h'
    all_goals first
      | exact absurd h' fail_ne
      | exact Except.ok.inj h' ▸ (text_ok.mp hvalue).1
  rwa [hj] at h

theorem good_kernelFields {k : Kernel} (h : kernelFields j = .ok k) :
    k.GoodFields ∧ k.configs = [] := by
  obtain ⟨-, -, h⟩ := bind_ok h
  obtain ⟨namespaceJson, -, h⟩ := bind_ok h
  obtain ⟨-, -, h⟩ := bind_ok h
  obtain ⟨found, -, h⟩ := bind_ok h
  obtain ⟨-, -, h⟩ := bind_ok h
  obtain ⟨entryJson, -, h⟩ := bind_ok h
  obtain ⟨entry, hentry, h⟩ := bind_ok h
  obtain ⟨targetJson, -, h⟩ := bind_ok h
  obtain ⟨target, htarget, h⟩ := bind_ok h
  obtain ⟨identity, -, h⟩ := bind_ok h
  obtain ⟨-, -, h⟩ := bind_ok h
  obtain ⟨kindJson, -, h⟩ := bind_ok h
  obtain ⟨-, -, h⟩ := bind_ok h
  obtain ⟨valueJson, -, h⟩ := bind_ok h
  obtain ⟨cubin, hcubin, h⟩ := bind_ok h
  split at h
  · exact absurd h fail_ne
  next hform =>
  cases h
  push Not at hform
  exact ⟨⟨(text_ok.mp hentry).2, isTarget_of_target htarget, (text_ok.mp hcubin).2, hform.1,
    by simpa using hform.2⟩, rfl⟩

theorem kernelFields_toJson {k : Kernel} (h : k.GoodFields) :
    kernelFields k.toJson = .ok { k with configs := [] } := by
  have hkeys : keys k.toJson ["match", "pc_namespace", "configs"] = .ok () :=
    keys_obj ["configs", "match", "pc_namespace"] rfl (by decide)
  have hmatch : keys (.obj [("entry", .str k.entry), ("identity",
      .obj [("kind", .str "cubin_sha256"), ("value", .str k.cubinSha256)]),
      ("target", .str k.target)]) ["entry", "target", "identity"] = .ok () :=
    keys_obj ["entry", "identity", "target"] rfl (by decide)
  have hidentity : keys (.obj [("kind", .str "cubin_sha256"), ("value", .str k.cubinSha256)])
      ["kind", "value"] = .ok () := keys_obj _ rfl (List.Perm.refl _)
  have hnamespace : constant (.str "function_relative_bytes") "function_relative_bytes" =
      .ok () := constant_ok.mpr ⟨rfl, isText_literal rfl (by decide)⟩
  have hkind : constant (.str "cubin_sha256") "cubin_sha256" = .ok () :=
    constant_ok.mpr ⟨rfl, isText_literal rfl (by decide)⟩
  have htarget : target (.str k.target) = .ok k.target := h.target
  have hform : ¬(k.cubinSha256.utf8ByteSize ≠ 64 ∨ hex k.cubinSha256.toList = false) := by
    push Not
    exact ⟨h.size, by simp [h.hex]⟩
  rw [kernelFields, hkeys, ok_bind]
  simp only [Kernel.toJson, member_obj_cons, String.reduceEq, if_true, if_false, ok_bind,
    hnamespace, hmatch, hidentity, hkind, text_str h.entry, htarget, text_str h.text,
    if_neg hform]
  rfl

def ReadsKernel (v : Vendor) (j : Json) (k : Kernel) : Prop :=
  ∃ result w items cs, kernelFields j = .ok result ∧ member j "configs" = .ok w ∧
    array w kConfigsMax = .ok items ∧ List.Forall₂ (fun i c => readConfig v i = .ok c) items cs ∧
      k = { result with configs := cs }

theorem kernel_iff {k : Kernel} {c c' : Counts} (hc : c.Within) :
    kernel v j c = .ok (k, c') ↔
      ReadsKernel v j k ∧ c' = c + kernelCount j ∧ c'.Within := by
  constructor
  · intro h
    obtain ⟨result, hresult, h⟩ := bind_ok h
    obtain ⟨w, hw, h⟩ := bind_ok h
    obtain ⟨items, hitems, h⟩ := bind_ok h
    obtain ⟨⟨cs, d⟩, hfold, h⟩ := bind_ok h
    cases h
    obtain ⟨ds, hds, rfl, rfl, hwithin⟩ :=
      (foldlM_counted Counts.Within.of_add addConfig_ok hc).mp hfold
    rw [kernelCount, itemsAt_of_member hw hitems]
    exact ⟨⟨result, w, items, cs, hresult, hw, hitems, hds, rfl⟩, rfl, hwithin⟩
  · rintro ⟨⟨result, w, items, cs, hresult, hw, hitems, hcs, rfl⟩, rfl, hwithin⟩
    rw [kernelCount, itemsAt_of_member hw hitems] at hwithin ⊢
    rw [kernel, hresult, ok_bind, hw, ok_bind, hitems, ok_bind,
      (foldlM_counted Counts.Within.of_add addConfig_ok hc).mpr ⟨cs, hcs, rfl, rfl, hwithin⟩]
    rfl

/-- The kernels that are read: with good fields and some good configurations. -/
structure Kernel.Good (v : Vendor) (k : Kernel) : Prop where
  fields : k.GoodFields
  ne : k.configs ≠ []
  configs : ∀ c ∈ k.configs, c.Good v

def Kernel.count (k : Kernel) : Counts := (k.configs.map fun c => (1, c.points.length)).sum

theorem good_kernel (hv : v.Lawful) {k : Kernel} (h : ReadsKernel v j k) : k.Good v := by
  obtain ⟨result, w, items, cs, hresult, hw, hitems, hcs, rfl⟩ := h
  obtain ⟨hfields, -⟩ := good_kernelFields hresult
  refine ⟨{ hfields with }, ?_, ?_⟩
  · rw [← List.length_pos_iff]
    show 0 < cs.length
    rw [← hcs.length_eq]
    exact List.length_pos_iff.mpr (array_ok.mp hitems).2.1
  · intro c hc
    obtain ⟨item, -, hitem⟩ := forall₂_mem_right hcs hc
    exact (good_config hv hitem).1

theorem kernelCount_toJson (k : Kernel) : kernelCount k.toJson = k.count := by
  have h : itemsAt k.toJson "configs" = k.configs.map Config.toJson := by
    simp [itemsAt, Kernel.toJson, Json.field, Dict.lookup]
  rw [kernelCount, h, List.map_map, Kernel.count]
  congr 1
  exact List.map_congr_left fun c _ => by simp [configCount, pointCount_toJson]

theorem readsKernel_toJson {k : Kernel} (h : k.Good v) (hlen : k.configs.length ≤ kConfigsMax) :
    ReadsKernel v k.toJson k := by
  have hmember : member k.toJson "configs" = .ok (.arr (k.configs.map Config.toJson)) := by
    simp only [Kernel.toJson, member_obj_cons, if_true]
  have hread : ∀ cs : List Config, (∀ c ∈ cs, c.Good v) →
      List.Forall₂ (fun i c => readConfig v i = .ok c) (cs.map Config.toJson) cs := by
    intro cs hcs
    induction cs with
    | nil => exact .nil
    | cons c cs ih =>
      obtain ⟨hc, hcs⟩ := List.forall_mem_cons.mp hcs
      exact .cons (readConfig_toJson hc) (ih hcs)
  exact ⟨_, _, _, k.configs, kernelFields_toJson h.fields, hmember,
    array_ok.mpr ⟨rfl, by simpa using h.ne, by simpa using hlen⟩, hread _ h.configs, rfl⟩

end CuTracer.Plan
