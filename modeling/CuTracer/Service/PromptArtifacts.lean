import CuTracer.Library.Loop
import CuTracer.Library.Utf8
import CuTracer.Service.Contracts
import Mathlib.Data.List.Sort

/-! The artifacts of a reasoner prompt, within a budget of bytes. Metadata is selected and contents
are cut by bisection over the size of the whole document, so the document never outgrows the budget,
and what is cut is marked. -/

namespace CuTracer.Service.Prompt

/-! ### Texts -/

def sortByKey {ν : Type} (fields : List (String × ν)) : List (String × ν) :=
  fields.insertionSort fun f g => f.1 ≤ g.1

mutual

/-- `_json_text`, where `repr` writes the floats. -/
def jsonText (repr : BitVec 64 → List Char) : Json → List Char
  | .null => "null".toList
  | .bool b => (if b then "true" else "false").toList
  | .int i => (toString i).toList
  | .float bits => repr bits
  | .str s => Json.writeString false s
  | .arr items => '[' :: Json.separated ']' (jsonItems repr items)
  | .obj fields => '\x7b' :: Json.separated '\x7d'
      ((sortByKey (jsonFields repr fields)).map fun f => Json.writeString false f.1 ++ ':' :: f.2)

def jsonItems (repr : BitVec 64 → List Char) : List Json → List (List Char)
  | [] => []
  | v :: vs => jsonText repr v :: jsonItems repr vs

def jsonFields (repr : BitVec 64 → List Char) : List (String × Json) → List (String × List Char)
  | [] => []
  | (k, v) :: fs => (k, jsonText repr v) :: jsonFields repr fs

end

def jsonSize (repr : BitVec 64 → List Char) (v : Json) : ℕ := Utf8.size (jsonText repr v)

/-- What a projection raises: `PromptProjectionError` or `UnicodeEncodeError`. -/
inductive ProjectionError where
  /-- `budget must be positive`. -/
  | notPositive (projection : String)
  /-- `projection budget (maxBytes bytes) cannot preserve what (minimum minimum bytes)`. -/
  | cannotPreserve (projection what : String) (maxBytes : ℤ) (minimum : ℕ)
  /-- `artifact projection exceeded its budget`. -/
  | exceeded (size : ℕ) (maxBytes : ℤ)
  /-- `'utf-8' codec can't encode character: surrogates not allowed`. -/
  | unicodeEncode

/-! ### References -/

/-- A character of a `str`. A byte of a file name that is no part of a character is a lone surrogate. -/
inductive StrChar where
  | char (c : Char)
  | surrogate (code : Fin 0x800)
  deriving DecidableEq

def StrChar.char? : StrChar → Option Char
  | .char c => some c
  | .surrogate _ => none

/-- A text that can be encoded, which one with a lone surrogate cannot. -/
def encodable (text : List StrChar) : Option String := (text.mapM StrChar.char?).map String.ofList

/-- `ArtifactRef`, of any texts. -/
structure StrRef where
  uri : List StrChar
  relativePath : List StrChar
  sha256 : Option (List StrChar)
  sizeBytes : Option ℤ
  mediaType : List StrChar

def StrRef.encodable (ref : StrRef) : Option ArtifactRef := do
  return ⟨← Prompt.encodable ref.uri, ← Prompt.encodable ref.relativePath, ← ref.sha256.mapM Prompt.encodable,
    ref.sizeBytes, ← Prompt.encodable ref.mediaType⟩

/-! ### The document -/

inductive ContentStatus where
  | omitted | included | truncated | loadError | notMaterialized
  deriving DecidableEq

def ContentStatus.value : ContentStatus → String
  | .omitted => "omitted"
  | .included => "included"
  | .truncated => "truncated"
  | .loadError => "load_error"
  | .notMaterialized => "not_materialized"

/-- An entry of `artifacts`; `truncated` is whether `content_truncated` is set. -/
structure ArtifactEntry where
  ref : ArtifactRef
  content : List Char
  status : ContentStatus
  truncated : Bool

/-- `ArtifactRef.to_dict`. -/
def refJson (ref : ArtifactRef) : Json :=
  .obj [("uri", .str ref.uri), ("relative_path", .str ref.relativePath),
    ("sha256", (ref.sha256.map Json.str).getD .null), ("size_bytes", (ref.sizeBytes.map Json.int).getD .null),
    ("media_type", .str ref.mediaType)]

def ArtifactEntry.toJson (e : ArtifactEntry) : Json :=
  .obj ([("ref", refJson e.ref), ("content", .str (String.ofList e.content)),
    ("content_status", .str e.status.value)] ++
    if e.truncated then [("content_truncated", .bool true)] else [])

def ArtifactEntry.ofRef (ref : ArtifactRef) : ArtifactEntry := ⟨ref, [], .omitted, false⟩

structure ArtifactDocument where
  maxBytes : ℤ
  entries : List ArtifactEntry
  omittedCount : ℕ

/-- `_artifact_document`. -/
def ArtifactDocument.toJson (d : ArtifactDocument) : Json :=
  .obj [("projection_schema_version", .int 1), ("budget_bytes", .int d.maxBytes),
    ("artifacts", .arr (d.entries.map ArtifactEntry.toJson)),
    ("omissions", .arr (if d.omittedCount = 0 then [] else
      [.obj [("section", .str "artifacts"), ("reason", .str "metadata_budget_exhausted"),
        ("omitted_count", .int d.omittedCount)]]))]

def ArtifactDocument.fill (d : ArtifactDocument) (index : ℕ) (content : List Char) (status : ContentStatus)
    (truncated : Bool) : ArtifactDocument :=
  { d with entries := d.entries.modify index fun e => ⟨e.ref, content, status, truncated⟩ }

section Projection

variable (repr : BitVec 64 → List Char)

def ArtifactDocument.size (d : ArtifactDocument) : ℕ := jsonSize repr d.toJson

/-- `_fit_artifact_content`: whether the content fits whole, or `none` where not even none of it
does, which leaves the document as it was. -/
def fitArtifactContent (d : ArtifactDocument) (index : ℕ) (content : List Char) (status : ContentStatus)
    (targetBytes : ℤ) (truncated : Bool) : Option Bool × ArtifactDocument :=
  if (d.fill index [] status truncated).size repr > targetBytes then (none, d)
  else
    let low := bisect (fun n => (d.fill index (content.take n) status truncated).size repr ≤ targetBytes)
      0 content.length
    (some (low = content.length), d.fill index (content.take low) status truncated)

variable (refs : List StrRef)

def deduplicateRefs : List StrRef :=
  refs.foldl (fun unique ref =>
    if unique.any fun r => r.uri = ref.uri && r.relativePath = ref.relativePath && r.sha256 = ref.sha256 &&
      r.mediaType = ref.mediaType then unique else unique ++ [ref]) []

/-- The document of the first references without contents, which has a size if they can be encoded. -/
def artifactCandidate (maxBytes : ℤ) (n : ℕ) : Option (List ArtifactRef × ArtifactDocument) := do
  let kept ← (refs.take n).mapM StrRef.encodable
  return (kept, ⟨maxBytes, kept.map .ofRef, refs.length - n⟩)

/-- `_select_artifact_metadata`, or `none` where a size raises. -/
def selectArtifactMetadata (maxBytes metadataCeiling : ℤ) : Option (List ArtifactRef × ArtifactDocument) := do
  let low ← bisectM (fun n => do return (← artifactCandidate refs maxBytes n).2.size repr ≤ metadataCeiling)
    0 refs.length
  artifactCandidate refs maxBytes low

/-- A loader returns a content or nothing, or raises. -/
abbrev ArtifactLoader := ArtifactRef → ℤ → Except String (Option (List Char))

def loadArtifactContent (ref : ArtifactRef) (loader : ArtifactLoader) (maxBytes : ℤ) :
    List Char × ContentStatus :=
  match loader ref maxBytes with
  | .error exc => (("[artifact unavailable: " ++ exc ++ "]").toList, .loadError)
  | .ok none => ("[artifact content was not materialized for this reasoning turn]".toList, .notMaterialized)
  | .ok (some content) => (content, .included)

def projectArtifactContent (d : ArtifactDocument) (index : ℕ) (ref : ArtifactRef) (loader : ArtifactLoader)
    (share : ℤ) : ArtifactDocument :=
  let loaded := loadArtifactContent ref loader share
  let target := d.size repr + share
  let fitted := fitArtifactContent repr d index loaded.1 loaded.2 target false
  let contentBytes : ℤ := Utf8.size loaded.1
  let knownTruncated := loaded.2 = .included ∧
    (contentBytes > share ∨ ref.sizeBytes.any fun size => size > contentBytes)
  if fitted.1 = none ∨ fitted.1 = some true ∧ ¬knownTruncated then fitted.2
  else
    let marked := fitArtifactContent repr fitted.2 index loaded.1
      (if loaded.2 = .included then .truncated else loaded.2) target true
    if marked.1 = none then marked.2.fill index [] .omitted false else marked.2

/-- The loop over the selected artifacts, from an index on. -/
def projectArtifactContents (loader : ArtifactLoader) (maxBytes : ℤ) :
    ℕ → List ArtifactRef → ArtifactDocument → ArtifactDocument
  | _, [], d => d
  | index, ref :: refs, d =>
    let share := (maxBytes - d.size repr) / (refs.length + 1)
    projectArtifactContents loader maxBytes (index + 1) refs
      (if share ≤ 0 then d else projectArtifactContent repr d index ref loader share)

def omissionRecord (maxBytes : ℤ) : ArtifactDocument :=
  ⟨maxBytes, [], (deduplicateRefs refs).length⟩

/-- The document of `project_artifact_context`. -/
def projectArtifacts (loader : ArtifactLoader) (maxBytes : ℤ) :
    Except ProjectionError ArtifactDocument := do
  if maxBytes ≤ 0 then throw (.notPositive "artifact")
  let minimum := (omissionRecord refs maxBytes).size repr
  if minimum > maxBytes then throw (.cannotPreserve "artifact" "omission metadata" maxBytes minimum)
  let some selected := selectArtifactMetadata repr (deduplicateRefs refs) maxBytes (max minimum (maxBytes / 3))
    | throw .unicodeEncode
  let d := projectArtifactContents repr loader maxBytes 0 selected.1 selected.2
  if d.size repr > maxBytes then throw (.exceeded (d.size repr) maxBytes)
  return d

def projectArtifactContext (loader : ArtifactLoader) (maxBytes : ℤ) :
    Except ProjectionError String :=
  (projectArtifacts repr refs loader maxBytes).map fun d => String.ofList (jsonText repr d.toJson)

end Projection

/-! ### The steps. What a step leaves is within its target, and every artifact keeps its entry -/

section Projection

variable {repr : BitVec 64 → List Char} {d d' : ArtifactDocument} {index : ℕ} {content : List Char}
  {status : ContentStatus} {targetBytes share maxBytes : ℤ} {truncated : Bool} {ref : ArtifactRef}
  {loader : ArtifactLoader}

@[simp] theorem fill_fill (c c' : List Char) (s s' : ContentStatus) (t t' : Bool) :
    (d.fill index c s t).fill index c' s' t' = d.fill index c' s' t' := by
  simp only [ArtifactDocument.fill, ArtifactDocument.mk.injEq, true_and, and_true]
  exact List.modify_modify_eq _ _ _ _

theorem getElem?_fill (i : ℕ) (c : List Char) (s : ContentStatus) (t : Bool) :
    (d.fill index c s t).entries[i]? = if i = index then d.entries[i]?.map fun e => ⟨e.ref, c, s, t⟩
      else d.entries[i]? := by
  rw [ArtifactDocument.fill, List.getElem?_modify, Option.map_eq_map]
  by_cases h : i = index
  · simp only [h, if_true]
  · simp [h, Ne.symm h]

@[simp] theorem map_ref_fill (c : List Char) (s : ContentStatus) (t : Bool) :
    (d.fill index c s t).entries.map ArtifactEntry.ref = d.entries.map ArtifactEntry.ref := by
  apply List.ext_getElem?
  intro i
  rw [List.getElem?_map, List.getElem?_map, getElem?_fill]
  split_ifs
  · rw [Option.map_map]
    rfl
  · rfl

/-- The entry of an artifact that has not been tried yet. -/
theorem fill_untouched (h : d.entries[index]? = some (.ofRef ref)) : d.fill index [] .omitted false = d := by
  have hentries : (d.fill index [] .omitted false).entries = d.entries := by
    apply List.ext_getElem?
    intro i
    rw [getElem?_fill]
    split_ifs with hi
    · rw [hi, h]
      rfl
    · rfl
  exact congrArg (fun entries => { d with entries := entries }) hentries

variable (repr d index content status targetBytes truncated) in
/-- A content that is fitted: as much of it as the target leaves room for, or the document as it was. -/
theorem fitArtifactContent_spec :
    (fitArtifactContent repr d index content status targetBytes truncated = (none, d)) ∨
    ∃ complete n, fitArtifactContent repr d index content status targetBytes truncated =
        (some complete, d.fill index (content.take n) status truncated) ∧
      ((d.fill index (content.take n) status truncated).size repr : ℤ) ≤ targetBytes ∧
      (complete = true → content.take n = content) := by
  unfold fitArtifactContent
  split_ifs with hlarge
  · exact .inl rfl
  · refine .inr ⟨_, _, rfl, ?_, ?_⟩
    · exact bisect_fits (p := fun n =>
        ((d.fill index (content.take n) status truncated).size repr : ℤ) ≤ targetBytes) (not_lt.mp hlarge)
    · intro hcomplete
      rw [of_decide_eq_true hcomplete, List.take_length]

theorem mapM_encodable_eq_none {refs : List StrRef} (h : refs.mapM StrRef.encodable = none) :
    ∃ ref ∈ refs, ref.encodable = none := by
  induction refs with
  | nil => cases h
  | cons ref refs ih =>
    rw [List.mapM_cons] at h
    cases hfirst : ref.encodable with
    | none => exact ⟨ref, List.mem_cons_self, hfirst⟩
    | some kept =>
      cases hrest : refs.mapM StrRef.encodable with
      | none =>
        obtain ⟨bad, hmem, hbad⟩ := ih hrest
        exact ⟨bad, List.mem_cons_of_mem _ hmem, hbad⟩
      | some rest => simp [hfirst, hrest] at h

variable (repr maxBytes) in
theorem selectArtifactMetadata_spec (refs : List StrRef) {metadataCeiling : ℤ}
    (h : ((⟨maxBytes, [], refs.length⟩ : ArtifactDocument).size repr : ℤ) ≤ metadataCeiling) :
    (selectArtifactMetadata repr refs maxBytes metadataCeiling = none ∧ ∃ ref ∈ refs, ref.encodable = none) ∨
      ∃ kept omitted, selectArtifactMetadata repr refs maxBytes metadataCeiling =
          some (kept, ⟨maxBytes, kept.map .ofRef, omitted⟩) ∧
        ((⟨maxBytes, kept.map .ofRef, omitted⟩ : ArtifactDocument).size repr : ℤ) ≤ metadataCeiling := by
  unfold selectArtifactMetadata
  obtain ⟨n, hlow, hfits⟩ | ⟨hlow, n, hnone⟩ := @bisectM_fits
    (fun n => do return (← artifactCandidate refs maxBytes n).2.size repr ≤ metadataCeiling)
    0 refs.length (congrArg some (decide_eq_true h))
  · rw [hlow]
    cases hkept : (refs.take n).mapM StrRef.encodable with
    | none => simp [artifactCandidate, hkept] at hfits
    | some kept =>
      simp only [artifactCandidate, Option.bind_eq_bind, Option.bind_some, hkept] at hfits ⊢
      exact .inr ⟨kept, _, rfl, of_decide_eq_true (Option.some.inj hfits)⟩
  · rw [hlow]
    refine .inl ⟨rfl, ?_⟩
    cases hkept : (refs.take n).mapM StrRef.encodable with
    | none =>
      obtain ⟨ref, hmem, hbad⟩ := mapM_encodable_eq_none hkept
      exact ⟨ref, List.mem_of_mem_take hmem, hbad⟩
    | some kept => simp [artifactCandidate, hkept] at hnone

theorem mem_deduplicateRefs {refs : List StrRef} {ref : StrRef} : ref ∈ deduplicateRefs refs → ref ∈ refs := by
  refine List.foldlRecOn refs _ (motive := fun unique => ref ∈ unique → ref ∈ refs) nofun ?_
  intro unique ih first hfirst hmem
  split_ifs at hmem
  · exact ih hmem
  · obtain hmem | hmem := List.mem_append.mp hmem
    · exact ih hmem
    · rwa [List.mem_singleton.mp hmem]

/-- An entry that is neither marked nor without content holds what a loader gave, of no more bytes than
it was asked for. -/
def Whole (loader : ArtifactLoader) (e : ArtifactEntry) : Prop :=
  e.status = .included → e.truncated = false →
    ∃ share : ℤ, loader e.ref share = .ok (some e.content) ∧ (Utf8.size e.content : ℤ) ≤ share

theorem loadArtifactContent_included (h : (loadArtifactContent ref loader maxBytes).2 = .included) :
    loader ref maxBytes = .ok (some (loadArtifactContent ref loader maxBytes).1) := by
  unfold loadArtifactContent at h ⊢
  cases hload : loader ref maxBytes with
  | error exc => simp [hload] at h
  | ok loaded =>
    cases loaded with
    | none => simp [hload] at h
    | some content => rfl

variable (repr loader) in
/-- The entry of an artifact after its content has been projected. -/
theorem projectArtifactContent_spec (hentry : d.entries[index]? = some (.ofRef ref)) (hshare : 0 ≤ share) :
    ∃ c s t, projectArtifactContent repr d index ref loader share = d.fill index c s t ∧
      ((d.fill index c s t).size repr : ℤ) ≤ d.size repr + share ∧ Whole loader ⟨ref, c, s, t⟩ := by
  have homitted : ((d.fill index [] .omitted false).size repr : ℤ) ≤ d.size repr + share := by
    rw [fill_untouched hentry]
    omega
  have hwhole : Whole loader ⟨ref, [], .omitted, false⟩ := nofun
  unfold projectArtifactContent
  generalize hloaded : loadArtifactContent ref loader share = loaded
  obtain ⟨content, status⟩ := loaded
  have hincluded (h : status = .included) : loader ref share = .ok (some content) := by
    have hload : (loadArtifactContent ref loader share).2 = .included →
        loader ref share = .ok (some (loadArtifactContent ref loader share).1) := loadArtifactContent_included
    rw [hloaded] at hload
    exact hload h
  dsimp only
  obtain hfit | ⟨complete, n, hfit, hsize, hcomplete⟩ := fitArtifactContent_spec repr d index
    content status (d.size repr + share) false
  · rw [hfit, if_pos (.inl rfl)]
    exact ⟨[], .omitted, false, (fill_untouched hentry).symm, homitted, hwhole⟩
  · rw [hfit]
    dsimp only
    generalize (if status = .included then .truncated else status) = final
    by_cases hdone : some complete = none ∨ some complete = some true ∧ ¬(status = .included ∧
        ((Utf8.size content : ℤ) > share ∨ ref.sizeBytes.any fun size => size > (Utf8.size content : ℤ)))
    · -- the content is there as it was loaded
      rw [if_pos hdone]
      obtain ⟨hall, hknown⟩ := hdone.resolve_left nofun
      rw [hcomplete (Option.some.inj hall)] at hsize ⊢
      refine ⟨content, status, false, rfl, hsize, ?_⟩
      intro hstatus _
      refine ⟨share, hincluded hstatus, ?_⟩
      by_contra hlong
      exact hknown ⟨hstatus, .inl (not_le.mp hlong)⟩
    · rw [if_neg hdone]
      obtain hmarked | ⟨_, m, hmarked, hsize', -⟩ := fitArtifactContent_spec repr
        (d.fill index (content.take n) status false) index content final (d.size repr + share) true
      · rw [hmarked, if_pos rfl]
        exact ⟨[], .omitted, false, fill_fill .., homitted, hwhole⟩
      · rw [hmarked, if_neg nofun]
        rw [fill_fill] at hsize' ⊢
        exact ⟨content.take m, final, true, rfl, hsize', nofun⟩

/-! ### The loop -/

variable (repr loader maxBytes) in
/-- The document while the artifacts from an index on have not been tried. -/
structure Projected (refs : List ArtifactRef) (index : ℕ) (d : ArtifactDocument) : Prop where
  map_ref : d.entries.map ArtifactEntry.ref = refs
  untried : ∀ i, index ≤ i → d.entries[i]? = refs[i]?.map .ofRef
  size_le : (d.size repr : ℤ) ≤ maxBytes
  whole : ∀ e ∈ d.entries, Whole loader e

theorem Projected.fill {refs : List ArtifactRef} (h : Projected repr maxBytes loader refs index d)
    {c : List Char} {s : ContentStatus} {t : Bool} (href : refs[index]? = some ref)
    (hsize : ((d.fill index c s t).size repr : ℤ) ≤ maxBytes) (hwhole : Whole loader ⟨ref, c, s, t⟩) :
    Projected repr maxBytes loader refs (index + 1) (d.fill index c s t) where
  map_ref := by rw [map_ref_fill, h.map_ref]
  untried := by
    intro i hi
    rw [getElem?_fill, if_neg (by omega)]
    exact h.untried i (by omega)
  size_le := hsize
  whole := by
    intro e he
    obtain ⟨i, hi⟩ := List.mem_iff_getElem?.mp he
    rw [getElem?_fill] at hi
    split_ifs at hi with heq
    · rw [heq, h.untried index le_rfl, href] at hi
      rw [← Option.some.inj hi]
      exact hwhole
    · exact h.whole e (List.mem_of_getElem? hi)

/-- An artifact gets no more than its share of what is left. -/
theorem Projected.step {refs : List ArtifactRef} (h : Projected repr maxBytes loader refs index d)
    (href : refs[index]? = some ref) (hshare : share ≤ maxBytes - d.size repr) :
    Projected repr maxBytes loader refs (index + 1)
      (if share ≤ 0 then d else projectArtifactContent repr d index ref loader share) := by
  split_ifs with hpos
  · exact ⟨h.map_ref, fun i hi => h.untried i (by omega), h.size_le, h.whole⟩
  · have hentry : d.entries[index]? = some (.ofRef ref) := by rw [h.untried index le_rfl, href]; rfl
    obtain ⟨c, s, t, hproject, hsize, hwhole⟩ := projectArtifactContent_spec repr loader hentry
      (not_le.mp hpos).le
    rw [hproject]
    exact h.fill href (by omega) hwhole

theorem Projected.run {refs rest : List ArtifactRef} (h : Projected repr maxBytes loader refs index d)
    (hrest : refs.drop index = rest) :
    Projected repr maxBytes loader refs (index + rest.length)
      (projectArtifactContents repr loader maxBytes index rest d) := by
  induction rest generalizing index d with
  | nil => exact h
  | cons ref rest ih =>
    have href : refs[index]? = some ref := by
      rw [← List.head?_drop, hrest]
      rfl
    have hdrop : refs.drop (index + 1) = rest := by
      rw [← List.tail_drop, hrest]
      rfl
    have hleft : 0 ≤ maxBytes - d.size repr := sub_nonneg.mpr h.size_le
    have hshare := Int.ediv_le_self (rest.length + 1 : ℤ) hleft
    rw [projectArtifactContents, List.length_cons, ← Nat.add_assoc, Nat.add_right_comm]
    exact ih (h.step href hshare) hdrop

variable (repr loader) in
/-- Either not even the omission record fits, or a reference cannot be encoded, or the document is within its
budget. -/
theorem projectArtifacts_spec (refs : List StrRef) (hmax : 0 < maxBytes) :
    (maxBytes < (omissionRecord refs maxBytes).size repr ∧
      projectArtifacts repr refs loader maxBytes = .error (.cannotPreserve "artifact" "omission metadata" maxBytes
        ((omissionRecord refs maxBytes).size repr))) ∨
    ((∃ ref ∈ refs, ref.encodable = none) ∧ projectArtifacts repr refs loader maxBytes = .error .unicodeEncode) ∨
    ∃ kept d, projectArtifacts repr refs loader maxBytes = .ok d ∧
      Projected repr maxBytes loader kept kept.length d := by
  unfold projectArtifacts
  simp only [if_neg (not_le.mpr hmax)]
  by_cases hmin : ((omissionRecord refs maxBytes).size repr : ℤ) > maxBytes
  · rw [if_pos hmin]
    exact .inl ⟨hmin, rfl⟩
  · rw [if_neg hmin]
    obtain ⟨hselect, ref, hmem, hbad⟩ | ⟨kept, omitted, hselect, hsize⟩ := selectArtifactMetadata_spec repr maxBytes
      (deduplicateRefs refs) (le_max_left ((omissionRecord refs maxBytes).size repr : ℤ) (maxBytes / 3))
    · rw [hselect]
      exact .inr (.inl ⟨⟨ref, mem_deduplicateRefs hmem, hbad⟩, rfl⟩)
    · rw [hselect]
      have hthird : maxBytes / 3 ≤ maxBytes := Int.ediv_le_self 3 hmax.le
      have hprojected : Projected repr maxBytes loader kept 0 ⟨maxBytes, kept.map .ofRef, omitted⟩ := by
        refine ⟨?_, ?_, by omega, ?_⟩
        · rw [List.map_map]
          exact List.map_id _
        · intro i _
          rw [List.getElem?_map]
        · intro e he
          obtain ⟨ref, -, rfl⟩ := List.mem_map.mp he
          exact nofun
      have hrun := hprojected.run List.drop_zero
      simp only [if_neg (not_lt.mpr hrun.size_le)]
      rw [Nat.zero_add] at hrun
      exact .inr (.inr ⟨_, _, rfl, hrun⟩)

end Projection

/-! ### Local files -/

/-- The text of what has been read of a file, with a mark if there is more than was asked for. -/
def localText (payload : List UInt8) (maxBytes : ℤ) : List Char :=
  Utf8.decodeReplace (payload.take maxBytes.toNat) ++
    if payload.length > maxBytes then "\n[truncated]".toList else []

/-- `_local_artifact_loader`; `contents` is what reading the file at a reference's local path gives or
raises. -/
def localArtifactLoader (contents : ArtifactRef → Except String (List UInt8)) : ArtifactLoader :=
  fun ref maxBytes =>
    if "file://".toList.isPrefixOf ref.uri.toList then
      (contents ref).map fun bytes => some (localText (bytes.take (maxBytes + 1).toNat) maxBytes)
    else .ok none

/-- A text that is cut takes more bytes than were asked for. -/
theorem localText_eq {bytes : List UInt8} {maxBytes : ℤ}
    (h : (Utf8.size (localText (bytes.take (maxBytes + 1).toNat) maxBytes) : ℤ) ≤ maxBytes) :
    localText (bytes.take (maxBytes + 1).toNat) maxBytes = Utf8.decodeReplace bytes := by
  unfold localText at h ⊢
  by_cases hlong : ((bytes.take (maxBytes + 1).toNat).length : ℤ) > maxBytes
  · have hdecoded := Utf8.length_le_size_decodeReplace ((bytes.take (maxBytes + 1).toNat).take maxBytes.toNat)
    have hmark : 0 < Utf8.size "\n[truncated]".toList := by decide
    rw [if_pos hlong, Utf8.size_append] at h
    rw [List.length_take] at hlong hdecoded
    rw [List.length_take] at hdecoded
    omega
  · rw [if_neg hlong, List.append_nil]
    rw [List.length_take] at hlong
    rw [List.take_take, List.take_of_length_le (by omega)]

/-- What a file gave, where it is neither marked nor missing, is all of it. -/
theorem Whole.local {contents : ArtifactRef → Except String (List UInt8)} {e : ArtifactEntry}
    (h : Whole (localArtifactLoader contents) e) (hstatus : e.status = .included) (htruncated : e.truncated = false) :
    ∃ bytes, contents e.ref = .ok bytes ∧ e.content = Utf8.decodeReplace bytes := by
  obtain ⟨share, hload, hsize⟩ := h hstatus htruncated
  unfold localArtifactLoader at hload
  by_cases hfile : "file://".toList.isPrefixOf e.ref.uri.toList
  · rw [if_pos hfile] at hload
    cases hread : contents e.ref with
    | error exc =>
      rw [hread] at hload
      cases hload
    | ok bytes =>
      rw [hread] at hload
      have htext := Option.some.inj (Except.ok.inj hload)
      rw [← htext] at hsize
      exact ⟨bytes, rfl, htext.symm.trans (localText_eq hsize)⟩
  · rw [if_neg hfile] at hload
    cases hload

end CuTracer.Service.Prompt
