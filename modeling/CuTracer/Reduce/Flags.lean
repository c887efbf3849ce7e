import CuTracer.Library.JsonMap
import CuTracer.Reduce.Document

/-! Documents of delay configs whose points are switched on and off. All points are rewritten by one
map over the document, which keeps its schema and everything besides the flags, and an assignment to
one flag is such a map. -/

namespace CuTracer.Reduce.Document

open CuTracer.Json (field fieldsOf mapField mapFields mapFields_comp mapField_comp)

/-! ### Rewriting the points of a document -/

def mapPoints (f : Key → Json → Json) : Json → Json :=
  mapField "kernels" <| mapFields fun kernelKey =>
    mapField "instrumentation_points" <| mapFields fun pc => f (kernelKey, pc)

def withOn (enabled : Bool) : Json → Json
  | .obj fields => .obj (Dict.upsertEntries "on" (fun _ => .bool enabled) fields)
  | v => v

def dropOn : Json → Json
  | .obj fields => .obj (fields.filter fun f => f.1 ≠ "on")
  | v => v

/-- The document with the points of a set enabled, and no others. -/
def enableOnly (on : Key → Bool) : Json → Json := mapPoints fun key => withOn (on key)

/-- What a document says besides which points are on. -/
def withoutOn : Json → Json := mapPoints fun _ => dropOn

theorem mapPoints_comp (f g : Key → Json → Json) (doc : Json) :
    mapPoints f (mapPoints g doc) = mapPoints (fun key point => f key (g key point)) doc := by
  rw [mapPoints, mapPoints, mapField_comp, mapPoints]
  congr 1
  funext kernels
  rw [mapFields_comp]
  congr 1
  funext kernelKey kernel
  rw [mapField_comp]
  congr 1
  funext points
  rw [mapFields_comp]

theorem upsertEntries_twice (key : String) (v w : Json) (fields : List (String × Json)) :
    Dict.upsertEntries key (fun _ => v) (Dict.upsertEntries key (fun _ => w) fields) =
      Dict.upsertEntries key (fun _ => v) fields := by
  induction fields with
  | nil => simp [Dict.upsertEntries]
  | cons f fields ih =>
    by_cases h : f.1 = key
    · simp [Dict.upsertEntries, h]
    · simp [Dict.upsertEntries, h, ih]

@[simp] theorem withOn_withOn (enabled enabled' : Bool) (point : Json) :
    withOn enabled (withOn enabled' point) = withOn enabled point := by
  cases point with
  | obj fields => rw [withOn, withOn, withOn, upsertEntries_twice]
  | _ => rfl

@[simp] theorem dropOn_withOn (enabled : Bool) (point : Json) : dropOn (withOn enabled point) = dropOn point := by
  cases point with
  | obj fields =>
    simp only [withOn, dropOn]
    congr 1
    induction fields with
    | nil => simp [Dict.upsertEntries]
    | cons f fields ih =>
      by_cases h : f.1 = "on"
      · simp [Dict.upsertEntries, h]
      · simp only [Dict.upsertEntries, if_neg h, List.filter_cons, ih]
  | _ => rfl

/-- Rewriting the points keeps everything else. -/
theorem withoutOn_enableOnly (on : Key → Bool) (doc : Json) : withoutOn (enableOnly on doc) = withoutOn doc := by
  rw [withoutOn, enableOnly, mapPoints_comp]
  simp only [dropOn_withOn]

/-! ### Reading the points -/

/-- The fields of `value.get(key, {})`. -/
def fieldsAt (key : String) (v : Json) : List (String × Json) :=
  fieldsOf ((field (fieldsOf v) key).getD (.obj []))

theorem fieldsAt_mapField (key : String) (g : String → Json → Json) (v : Json) :
    fieldsAt key (mapField key (mapFields g) v) = (fieldsAt key v).map fun f => (f.1, g f.1 f.2) := by
  rw [fieldsAt, Json.field_mapField, if_pos rfl, fieldsAt]
  cases field (fieldsOf v) key with
  | none => rfl
  | some w => exact Json.fieldsOf_mapFields g w

def pointOf (kernelKey : String) (kernelConfig : Json) (e : String × Json) : DelayPoint where
  kernelKey := kernelKey
  kernelName := (field (fieldsOf kernelConfig) "kernel_name").getD (.str kernelKey)
  pcOffset := e.1
  sass := (field (fieldsOf e.2) "sass").getD (.str "")
  delayNs := (field (fieldsOf e.2) "delay").getD (.int 0)
  enabled := (field (fieldsOf e.2) "on").getD (.bool false)

def kernelPoints (e : String × Json) : List DelayPoint :=
  (fieldsAt "instrumentation_points" e.2).map (pointOf e.1 e.2)

def pointsOf (doc : Json) : List DelayPoint := (fieldsAt "kernels" doc).flatMap kernelPoints

section Shape

variable {doc kernel point : Json}

theorem schema_kernels (hdoc : delayConfigSchema doc) :
    ∃ kernels, field (fieldsOf doc) "kernels" = some (.obj kernels) ∧ ∀ e ∈ kernels, kernelDelayConfig e.2 := by
  obtain ⟨w, hfield, hw⟩ := Json.Schema.object_field hdoc (show "kernels" ∈ _ by simp)
  have hproperty : Json.Schema.object [] [] kernelDelayConfig w := by
    simpa [Json.Schema.property, Dict.lookup] using hw
  obtain ⟨kernels, rfl, -, hall⟩ := Json.Schema.object_iff.mp hproperty
  exact ⟨kernels, hfield, hall⟩

theorem schema_points (hkernel : kernelDelayConfig kernel) :
    ∃ points, field (fieldsOf kernel) "instrumentation_points" = some (.obj points) ∧
      ∀ e ∈ points, instrumentationPoint e.2 := by
  obtain ⟨w, hfield, hw⟩ := Json.Schema.object_field hkernel (show "instrumentation_points" ∈ _ by simp)
  have hproperty : Json.Schema.object [] [] instrumentationPoint w := by
    simpa [Json.Schema.property, Dict.lookup] using hw
  obtain ⟨points, rfl, -, hall⟩ := Json.Schema.object_iff.mp hproperty
  exact ⟨points, hfield, hall⟩

theorem schema_on (hpoint : instrumentationPoint point) :
    ∃ enabled, field (fieldsOf point) "on" = some (.bool enabled) := by
  obtain ⟨w, hfield, hw⟩ := Json.Schema.object_field hpoint (show "on" ∈ _ by simp)
  have hproperty : Json.Schema.boolean w := by
    simpa [Json.Schema.property, Dict.lookup] using hw
  cases w with
  | bool enabled => exact ⟨enabled, hfield⟩
  | _ => cases hproperty

variable {e : String × Json}

theorem mem_fieldsAt_kernels (hdoc : delayConfigSchema doc) (he : e ∈ fieldsAt "kernels" doc) :
    kernelDelayConfig e.2 := by
  obtain ⟨kernels, hfield, hall⟩ := schema_kernels hdoc
  rw [fieldsAt, hfield] at he
  exact hall e he

theorem mem_fieldsAt_points (hkernel : kernelDelayConfig kernel)
    (he : e ∈ fieldsAt "instrumentation_points" kernel) : instrumentationPoint e.2 := by
  obtain ⟨points, hfield, hall⟩ := schema_points hkernel
  rw [fieldsAt, hfield] at he
  exact hall e he

variable {v : Json}

theorem asDict_object {required : List String} {properties : List (String × (Json → Bool))}
    {additional : Json → Bool} (hv : Json.Schema.object required properties additional v) :
    asDict v = .ok (fieldsOf v) := by
  obtain ⟨fields, rfl, -, -⟩ := Json.Schema.object_iff.mp hv
  rfl

theorem mapM_map {ε α β : Type} {f : α → Except ε β} {g : α → β} {xs : List α} (h : ∀ x ∈ xs, f x = .ok (g x)) :
    xs.mapM f = .ok (xs.map g) := by
  rw [mapM_ok, List.forall₂_map_right_iff, List.forall₂_same]
  exact h

theorem parseKernel_ok (hkernel : kernelDelayConfig e.2) :
    parseKernel e = .ok (kernelPoints e) := by
  obtain ⟨points, hfield, hall⟩ := schema_points hkernel
  rw [parseKernel, asDict_object hkernel, ok_bind, hfield, Option.getD_some, asDict, ok_bind, kernelPoints, fieldsAt,
    hfield, Option.getD_some, fieldsOf]
  apply mapM_map
  intro q hq
  rw [parsePoint, asDict_object (hall q hq)]
  rfl

/-- A document that passes the schema is parsed. -/
theorem parseDelayPoints_ok (hdoc : delayConfigSchema doc) : parseDelayPoints doc = .ok (pointsOf doc) := by
  obtain ⟨kernels, hfield, hall⟩ := schema_kernels hdoc
  rw [parseDelayPoints, asDict_object hdoc, ok_bind, hfield, Option.getD_some, asDict, ok_bind,
    mapM_map (g := kernelPoints) fun e he => parseKernel_ok (hall e he), ok_bind, pointsOf, fieldsAt, hfield,
    Option.getD_some, fieldsOf, List.flatMap_def]

/-! ### Enabling points keeps the schema -/

theorem withOn_schema (enabled : Bool) (hpoint : instrumentationPoint point) :
    instrumentationPoint (withOn enabled point) := by
  obtain ⟨fields, rfl, hrequired, hall⟩ := Json.Schema.object_iff.mp hpoint
  refine Json.Schema.object_iff.mpr ⟨_, rfl, fun key hkey => ?_, fun f hf => ?_⟩
  · rw [field, Dict.lookup_upsertEntries]
    split_ifs
    · rfl
    · exact hrequired key hkey
  · rcases Dict.mem_upsertEntries hf with hold | ⟨_, rfl⟩
    · exact hall f hold
    · simp [Json.Schema.property, Dict.lookup, Json.Schema.boolean]

theorem enableOnly_kernel_schema (on : String → Bool) (hkernel : kernelDelayConfig kernel) :
    kernelDelayConfig (mapField "instrumentation_points" (mapFields fun pc => withOn (on pc)) kernel) := by
  apply Json.Schema.object_mapFields hkernel
  intro f hf hproperty
  split_ifs with hkey
  · rw [hkey] at hproperty ⊢
    have hpoints : Json.Schema.object [] [] instrumentationPoint f.2 := by
      simpa [Json.Schema.property, Dict.lookup] using hproperty
    have hmap := Json.Schema.object_mapFields (g := fun pc => withOn (on pc)) hpoints
      fun e _ hpoint => withOn_schema (on e.1) hpoint
    simpa [Json.Schema.property, Dict.lookup] using hmap
  · exact hproperty

theorem enableOnly_schema (on : Key → Bool) (hdoc : delayConfigSchema doc) :
    delayConfigSchema (enableOnly on doc) := by
  rw [enableOnly, mapPoints]
  apply Json.Schema.object_mapFields hdoc
  intro f hf hproperty
  split_ifs with hkey
  · rw [hkey] at hproperty ⊢
    have hkernels : Json.Schema.object [] [] kernelDelayConfig f.2 := by
      simpa [Json.Schema.property, Dict.lookup] using hproperty
    have hmap := Json.Schema.object_mapFields
      (g := fun kernelKey => mapField "instrumentation_points" (mapFields fun pc => withOn (on (kernelKey, pc)))) hkernels
      fun e _ hkernel => enableOnly_kernel_schema (fun pc => on (e.1, pc)) hkernel
    simpa [Json.Schema.property, Dict.lookup] using hmap
  · exact hproperty

/-! ### The points after it -/

def withEnabled (on : Key → Bool) (p : DelayPoint) : DelayPoint := { p with enabled := .bool (on p.key) }

@[simp] theorem withEnabled_key (on : Key → Bool) (p : DelayPoint) : (withEnabled on p).key = p.key := rfl

theorem field_withOn_ne {key : String} (hkey : key ≠ "on") (enabled : Bool) (point : Json) :
    field (fieldsOf (withOn enabled point)) key = field (fieldsOf point) key := by
  cases point with
  | obj fields => simp [withOn, fieldsOf, field, Dict.lookup_upsertEntries, hkey]
  | _ => rfl

theorem field_withOn (enabled : Bool) (hpoint : instrumentationPoint point) :
    field (fieldsOf (withOn enabled point)) "on" = some (.bool enabled) := by
  obtain ⟨fields, rfl, -, -⟩ := Json.Schema.object_iff.mp hpoint
  simp [withOn, fieldsOf, field, Dict.lookup_upsertEntries]

theorem pointOf_withOn (on : Key → Bool) {kernelKey pc : String} (hpoint : instrumentationPoint point) :
    pointOf kernelKey kernel (pc, withOn (on (kernelKey, pc)) point) =
      withEnabled on (pointOf kernelKey kernel (pc, point)) := by
  simp [pointOf, withEnabled, DelayPoint.key, field_withOn _ hpoint, field_withOn_ne]

theorem kernelPoints_enableOnly (on : Key → Bool) {kernelKey : String} (hkernel : kernelDelayConfig kernel) :
    kernelPoints (kernelKey,
        mapField "instrumentation_points" (mapFields fun pc => withOn (on (kernelKey, pc))) kernel) =
      (kernelPoints (kernelKey, kernel)).map (withEnabled on) := by
  rw [kernelPoints, fieldsAt_mapField, kernelPoints, List.map_map, List.map_map]
  apply List.map_congr_left
  intro e he
  have hname : field (fieldsOf (mapField "instrumentation_points"
      (mapFields fun pc => withOn (on (kernelKey, pc))) kernel)) "kernel_name" =
      field (fieldsOf kernel) "kernel_name" := by
    rw [Json.field_mapField, if_neg (by simp)]
  have hpoint : pointOf kernelKey kernel (e.1, withOn (on (kernelKey, e.1)) e.2) =
      withEnabled on (pointOf kernelKey kernel (e.1, e.2)) := pointOf_withOn on (mem_fieldsAt_points hkernel he)
  rw [Function.comp, Function.comp, ← hpoint]
  simp only [pointOf, hname]

/-- The points are the same, in the same order, and enabled by their keys. -/
theorem pointsOf_enableOnly (on : Key → Bool) (hdoc : delayConfigSchema doc) :
    pointsOf (enableOnly on doc) = (pointsOf doc).map (withEnabled on) := by
  rw [pointsOf, enableOnly, mapPoints, fieldsAt_mapField, List.flatMap_map, pointsOf, List.map_flatMap]
  apply List.flatMap_congr
  intro e he
  exact kernelPoints_enableOnly on (mem_fieldsAt_kernels hdoc he)

/-! ### Keys that are not repeated -/

theorem distinct_nodup (hv : Json.Distinct v) : ((fieldsOf v).map Prod.fst).Nodup := by
  cases v with
  | obj fields => exact (Json.distinct_obj.mp hv).1
  | _ => exact List.nodup_nil

theorem distinct_mem (hv : Json.Distinct v) (he : e ∈ fieldsOf v) : Json.Distinct e.2 := by
  cases v with
  | obj fields => exact (Json.distinct_obj.mp hv).2 e he
  | _ => cases he

theorem distinct_at (hv : Json.Distinct v) (key : String) :
    Json.Distinct ((field (fieldsOf v) key).getD (.obj [])) := by
  cases hfield : field (fieldsOf v) key with
  | none => exact Json.distinct_obj.mpr ⟨List.nodup_nil, fun _ h => absurd h List.not_mem_nil⟩
  | some w => exact distinct_mem hv (Dict.mem_of_lookup hfield)

theorem distinct_mapFields {g : String → Json → Json} (hv : Json.Distinct v)
    (hg : ∀ e ∈ fieldsOf v, Json.Distinct (g e.1 e.2)) : Json.Distinct (mapFields g v) := by
  cases v with
  | obj fields =>
    refine Json.distinct_obj.mpr ⟨?_, fun f hf => ?_⟩
    · rw [List.map_map]
      exact (Json.distinct_obj.mp hv).1
    · obtain ⟨e, he, rfl⟩ := List.mem_map.mp hf
      exact hg e he
  | _ => exact hv

theorem distinct_withOn (enabled : Bool) (hpoint : Json.Distinct point) : Json.Distinct (withOn enabled point) := by
  cases point with
  | obj fields =>
    obtain ⟨hnodup, hall⟩ := Json.distinct_obj.mp hpoint
    refine Json.distinct_obj.mpr ⟨(Dict.mk fields hnodup).upsert "on" (fun _ => .bool enabled) |>.nodup, fun f hf => ?_⟩
    rcases Dict.mem_upsertEntries hf with hold | ⟨_, rfl⟩
    · exact hall f hold
    · rfl
  | _ => exact hpoint

/-- The field with the key of an entry. -/
theorem field_of_mem (hv : Json.Distinct v) (he : e ∈ fieldsOf v) :
    field (fieldsOf v) e.1 = some e.2 :=
  (Dict.lookup_eq_some_iff (distinct_nodup hv) e.1 e.2).mpr he

/-- A map that agrees at the one place it looks at. -/
theorem mapField_congr {key : String} {g h : Json → Json} (hv : Json.Distinct v)
    (hgh : g ((field (fieldsOf v) key).getD (.obj [])) = h ((field (fieldsOf v) key).getD (.obj []))) :
    mapField key g v = mapField key h v := by
  apply Json.mapFields_congr
  intro e he
  split_ifs with hkey
  · have hfield : field (fieldsOf v) key = some e.2 := by
      rw [field, Dict.lookup_eq_some_iff (distinct_nodup hv), ← hkey]
      exact he
    rw [hfield] at hgh
    exact hgh
  · rfl

theorem mapPoints_congr {f g : Key → Json → Json} (hdoc : Json.Distinct doc)
    (hfg : ∀ e ∈ fieldsAt "kernels" doc, ∀ q ∈ fieldsAt "instrumentation_points" e.2,
      f (e.1, q.1) q.2 = g (e.1, q.1) q.2) : mapPoints f doc = mapPoints g doc := by
  apply mapField_congr hdoc
  apply Json.mapFields_congr
  intro e he
  apply mapField_congr (distinct_mem (distinct_at hdoc _) he)
  apply Json.mapFields_congr
  intro q hq
  exact hfg e he q hq

section Relations

variable {R : Json → Json → Prop} (hrefl : ∀ v, R v v)
  (hmap : ∀ g v, (∀ f ∈ fieldsOf v, R f.2 (g f.1 f.2)) → R v (mapFields g v))
include hrefl hmap

theorem mapField_rel {key : String} {g : Json → Json} {v : Json} (hv : Json.Distinct v)
    (hg : ∀ w, field (fieldsOf v) key = some w → R w (g w)) : R v (mapField key g v) := by
  apply hmap
  intro f hf
  split_ifs with hkey
  · apply hg
    rw [← hkey]
    exact field_of_mem hv hf
  · exact hrefl f.2

/-- What holds of every point and its new value, and of objects whose fields have it, holds of the document. -/
theorem mapPoints_rel {f : Key → Json → Json} (hdoc : Json.Distinct doc)
    (hf : ∀ e ∈ fieldsAt "kernels" doc, ∀ q ∈ fieldsAt "instrumentation_points" e.2, R q.2 (f (e.1, q.1) q.2)) :
    R doc (mapPoints f doc) := by
  apply mapField_rel hrefl hmap hdoc
  intro kernels hkernels
  apply hmap
  intro e he
  have hkernel : e ∈ fieldsAt "kernels" doc := by rwa [fieldsAt, hkernels]
  apply mapField_rel hrefl hmap (distinct_mem (distinct_at hdoc _) hkernel)
  intro points hpoints
  apply hmap
  intro q hq
  exact hf e hkernel q (by rwa [fieldsAt, hpoints])

end Relations

theorem distinct_enableOnly (on : Key → Bool) (hdoc : Json.Distinct doc) : Json.Distinct (enableOnly on doc) := by
  have hrel := mapPoints_rel (R := fun v w => Json.Distinct v → Json.Distinct w) (f := fun key => withOn (on key))
    (fun _ hv => hv) (fun g v hg hv => distinct_mapFields hv fun e he => hg e he (distinct_mem hv he)) hdoc
    fun _ _ q _ hq => distinct_withOn _ hq
  exact hrel hdoc

theorem mapPoints_id (doc : Json) : mapPoints (fun _ point => point) doc = doc := by
  simp only [mapPoints, mapField]
  apply Json.mapFields_id
  intro e _
  split_ifs
  · apply Json.mapFields_id
    intro kernel _
    apply Json.mapFields_id
    intro points _
    split_ifs
    · exact Json.mapFields_id fun _ _ => rfl
    · rfl
  · rfl

theorem upsertEntries_self {key : String} {fields : List (String × Json)}
    (hv : Dict.lookup key fields = some v) :
    Dict.upsertEntries key (fun _ => v) fields = fields := by
  induction fields with
  | nil => cases hv
  | cons f fields ih =>
    rw [Dict.lookup] at hv
    by_cases hkey : f.1 = key
    · rw [if_pos hkey] at hv
      cases hv
      rw [Dict.upsertEntries, if_pos hkey, ← hkey]
    · rw [if_neg hkey] at hv
      rw [Dict.upsertEntries, if_neg hkey, ih hv]

theorem withOn_self {enabled : Bool} (hon : field (fieldsOf point) "on" = some (.bool enabled)) :
    withOn enabled point = point := by
  cases point with
  | obj fields => exact congrArg Json.obj (upsertEntries_self hon)
  | _ => rfl

theorem mem_pointsOf {p : DelayPoint} : p ∈ pointsOf doc ↔
    ∃ e ∈ fieldsAt "kernels" doc, ∃ q ∈ fieldsAt "instrumentation_points" e.2, pointOf e.1 e.2 q = p := by
  simp only [pointsOf, List.mem_flatMap, kernelPoints, List.mem_map]

/-- A document has its own points enabled. -/
theorem enableOnly_self (hdoc : delayConfigSchema doc) (hdistinct : Json.Distinct doc) {on : Key → Bool}
    (hon : ∀ p ∈ pointsOf doc, p.enabled = .bool (on p.key)) : enableOnly on doc = doc := by
  rw [← mapPoints_id doc, enableOnly, mapPoints_comp]
  apply mapPoints_congr hdistinct
  intro e he q hq
  obtain ⟨enabled, hfield⟩ := schema_on (mem_fieldsAt_points (mem_fieldsAt_kernels hdoc he) hq)
  have hpoint := hon _ (mem_pointsOf.mpr ⟨e, he, q, hq, rfl⟩)
  simp only [pointOf, DelayPoint.key, hfield, Option.getD_some, Json.bool.injEq] at hpoint
  rw [← hpoint]
  exact withOn_self hfield

/-! ### One assignment -/

theorem updateEntries_ok {key : String} {f : Json → Except PyError Json} {g : Json → Json}
    {fields : List (String × Json)} (hnodup : (fields.map Prod.fst).Nodup)
    (hv : field fields key = some v) (hf : f v = .ok (g v)) :
    updateEntries key f fields = .ok (fields.map fun e => (e.1, if e.1 = key then g e.2 else e.2)) := by
  induction fields with
  | nil => cases hv
  | cons e fields ih =>
    rw [List.map_cons, List.nodup_cons] at hnodup
    rw [field, Dict.lookup] at hv
    by_cases hkey : e.1 = key
    · rw [if_pos hkey] at hv
      cases hv
      have hrest : fields.map (fun e => (e.1, if e.1 = key then g e.2 else e.2)) = fields.map id := by
        apply List.map_congr_left
        intro e' he'
        have hne : e'.1 ≠ key := fun h => hnodup.1 (hkey ▸ h ▸ List.mem_map_of_mem he')
        rw [if_neg hne, id]
      rw [updateEntries, if_pos hkey, hf, ok_bind, List.map_cons, if_pos hkey, hrest, List.map_id]
    · rw [if_neg hkey] at hv
      rw [updateEntries, if_neg hkey, ih hnodup.2 hv, ok_bind, List.map_cons, if_neg hkey]

theorem update_ok {key : String} {f : Json → Except PyError Json} {g : Json → Json} {v w : Json}
    (hnodup : ((fieldsOf v).map Prod.fst).Nodup) (hw : field (fieldsOf v) key = some w)
    (hf : f w = .ok (g w)) : update key f v = .ok (mapField key g v) := by
  cases v with
  | obj fields =>
    have hentries : updateEntries key f fields = _ := updateEntries_ok hnodup hw hf
    rw [update, hentries]
    rfl
  | _ => cases hw

theorem assign_on (enabled : Bool) (hpoint : instrumentationPoint point) :
    assign "on" (.bool enabled) point = .ok (withOn enabled point) := by
  obtain ⟨fields, rfl, -, -⟩ := Json.Schema.object_iff.mp hpoint
  rfl

/-- The assignment rewrites the point with the key. -/
theorem setOn_ok (hdoc : delayConfigSchema doc) (hdistinct : Json.Distinct doc) {p : DelayPoint}
    (hp : p ∈ pointsOf doc) (enabled : Bool) :
    setOn p.key enabled doc =
      .ok (mapPoints (fun key point => if key = p.key then withOn enabled point else point) doc) := by
  obtain ⟨e, he, q, hq, rfl⟩ := mem_pointsOf.mp hp
  obtain ⟨kernels, hkernels, hall⟩ := schema_kernels hdoc
  have hd₁ := distinct_at hdistinct "kernels"
  rw [fieldsAt, hkernels, Option.getD_some] at he
  rw [hkernels, Option.getD_some] at hd₁
  have hd₂ := distinct_mem hd₁ he
  obtain ⟨points, hpoints, hpointAll⟩ := schema_points (hall e he)
  have hd₃ := distinct_at hd₂ "instrumentation_points"
  rw [fieldsAt, hpoints, Option.getD_some] at hq
  rw [hpoints, Option.getD_some] at hd₃
  have hpoint := update_ok (distinct_nodup hd₃) (field_of_mem hd₃ hq) (assign_on enabled (hpointAll q hq))
  have hkernel := update_ok (distinct_nodup hd₁) (field_of_mem hd₁ he) (update_ok (distinct_nodup hd₂) hpoints hpoint)
  have hset : setOn (e.1, q.1) enabled doc = .ok (mapField "kernels"
      (mapField e.1 (mapField "instrumentation_points" (mapField q.1 (withOn enabled)))) doc) :=
    update_ok (distinct_nodup hdistinct) hkernels hkernel
  rw [show (pointOf e.1 e.2 q).key = (e.1, q.1) from rfl, hset, mapPoints]
  congr 2
  funext v
  rw [mapField]
  congr 1
  funext kernelKey kernel
  split_ifs with hkey
  · simp [hkey, mapField]
  · have hother : (mapFields fun pc point => if (kernelKey, pc) = (e.1, q.1) then withOn enabled point else point) =
        fun points => points := by
      funext points
      apply Json.mapFields_id
      intro q' _
      rw [if_neg fun h => hkey (Prod.mk.inj h).1]
    rw [hother, mapField, Json.mapFields_id fun f _ => ite_self f.2]

/-- The same, of a document with some points enabled. -/
theorem setOn_enableOnly (hdoc : delayConfigSchema doc) (hdistinct : Json.Distinct doc) (on : Key → Bool)
    {p : DelayPoint} (hp : p ∈ pointsOf doc) (enabled : Bool) :
    setOn p.key enabled (enableOnly on doc) = .ok (enableOnly (Function.update on p.key enabled) doc) := by
  have hmem : withEnabled on p ∈ pointsOf (enableOnly on doc) := by
    rw [pointsOf_enableOnly on hdoc]
    exact List.mem_map_of_mem hp
  have hset := setOn_ok (enableOnly_schema on hdoc) (distinct_enableOnly on hdistinct) hmem enabled
  rw [withEnabled_key] at hset
  rw [hset, enableOnly, mapPoints_comp, enableOnly]
  congr 2
  funext key point
  by_cases hkey : key = p.key
  · simp [hkey]
  · simp [hkey]

end Shape

end CuTracer.Reduce.Document
