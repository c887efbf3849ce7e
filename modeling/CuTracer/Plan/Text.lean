import CuTracer.Library.Sha256
import CuTracer.Plan.Load

/-! A JSON library and a hash for which the loader can be run. It reads compact text of
plain documents only, and as any parser it reports what it read before an error. -/

namespace CuTracer.Plan

open Json

def parseError : JsonException := ⟨true, "syntax error"⟩

/-- The document at the start of some bytes, and whether it is all of them. -/
def readCompact (bytes : List UInt8) : Option (Json × Bool) :=
  (ofUtf8 bytes).bind fun s =>
    (readValue s.toList.length s.toList).bind fun p =>
      if p.1.Plain then some (p.1, p.2.isEmpty) else none

def saxCompact (bytes : List UInt8) : List (ℕ × ParseEvent) × Except JsonException Json :=
  match readCompact bytes with
  | some (j, true) => (events 0 j, .ok j)
  | some (j, false) => (events 0 j, .error parseError)
  | none => ([], .error parseError)

def compact : Vendor := ⟨saxCompact, dump, Sha256.hash256HexString⟩

theorem readCompact_dump (ascii : Bool) {j : Json} (hj : j.Plain) :
    readCompact (utf8 (dump ascii j)) = some (j, true) := by
  have hstops : Stops [] := fun c hc => by cases hc
  have h := readValue_write hj (le_refl (write ascii j).length) hstops
  rw [List.append_nil] at h
  rw [readCompact, ofUtf8_utf8, Option.bind_some, dump, String.toList_ofList, h, Option.bind_some,
    if_pos hj]
  rfl

theorem readCompact_plain {bytes : List UInt8} {j : Json} {all : Bool}
    (h : readCompact bytes = some (j, all)) : j.Plain := by
  obtain ⟨s, -, h⟩ := Option.bind_eq_some_iff.mp h
  obtain ⟨p, -, h⟩ := Option.bind_eq_some_iff.mp h
  split_ifs at h with hp
  obtain ⟨rfl, -⟩ := Prod.mk.inj (Option.some.inj h)
  exact hp

/-- Compact text is as the loader relies on. -/
theorem lawful_compact : compact.Lawful where
  sax_dump ascii j hj := by
    show saxCompact _ = _
    rw [saxCompact, show compact.dump ascii j = dump ascii j from rfl, readCompact_dump ascii hj]
  sax_sorted bytes j h := by
    have h : (saxCompact bytes).2 = .ok j := h
    unfold saxCompact at h
    split at h
    · next i hread =>
      cases h
      exact (readCompact_plain hread).sorted
    · cases h
    · cases h
  dump_ne ascii j hj h := write_ne_nil ascii hj (String.ofList_injective h)
  dump_no_nul ascii j hj := zero_not_mem_utf8 (null_not_mem_write ascii hj)

/-- The text in ASCII has as many bytes as characters. -/
theorem size_compact {j : Json} (hj : j.Plain) :
    (compact.dump true j).utf8ByteSize = (write true j).length :=
  utf8ByteSize_ascii fun c hc => (ascii_write hj c hc).2

/-! ### Two lines -/

def twoLines (j k : Json) : List UInt8 :=
  utf8 (String.ofList (write true j ++ '\n' :: write true k))

theorem newline_not_mem_utf8 {cs : List Char} (h : ∀ c ∈ cs, 32 ≤ c.toNat ∧ c.toNat < 128) :
    (10 : UInt8) ∉ utf8 (String.ofList cs) := by
  rw [utf8_ofList, List.mem_flatMap]
  rintro ⟨c, hc, hmem⟩
  obtain ⟨hle, hlt⟩ := h c hc
  have hval : c.val.toNat ≤ 127 := Nat.le_of_lt_succ hlt
  rw [String.utf8EncodeChar, if_pos hval, List.mem_singleton] at hmem
  have hnat := congrArg UInt8.toNat hmem
  rw [UInt8.toNat_ofNat'] at hnat
  change 10 = c.toNat % 256 at hnat
  omega

theorem length_twoLines {j k : Json} (hj : j.Plain) (hk : k.Plain) :
    (twoLines j k).length = (write true j).length + (write true k).length + 1 := by
  rw [twoLines, length_utf8, utf8ByteSize_ascii, List.length_append, List.length_cons]
  · rfl
  · intro c hc
    rcases List.mem_append.mp hc with hc | hc
    · exact (ascii_write hj c hc).2
    · rcases List.mem_cons.mp hc with rfl | hc
      · decide
      · exact (ascii_write hk c hc).2

theorem twoLines_splitOn {j k : Json} (hj : j.Plain) (hk : k.Plain) :
    (twoLines j k).splitOn 10 = [utf8 (dump true j), utf8 (dump true k)] := by
  have hlines : twoLines j k = [10].intercalate [utf8 (dump true j), utf8 (dump true k)] := by
    simp only [twoLines, dump, utf8_ofList, List.flatMap_append, List.flatMap_cons, List.intercalate,
      List.intersperse, List.flatten_cons, List.flatten_nil, List.append_nil]
    rfl
  rw [hlines, List.splitOn_intercalate 10 _ (List.cons_ne_nil _ _)]
  simp only [List.forall_mem_cons]
  exact ⟨newline_not_mem_utf8 (ascii_write hj), newline_not_mem_utf8 (ascii_write hk), by simp⟩

theorem saxCompact_twoLines {j : Json} (hj : j.Plain) (k : Json) :
    saxCompact (twoLines j k) = (events 0 j, .error parseError) := by
  have hstops : Stops ('\n' :: write true k) := stops_cons rfl
  have hlen : (write true j).length ≤ (write true j ++ '\n' :: write true k).length := by simp
  rw [saxCompact, readCompact, twoLines, ofUtf8_utf8, Option.bind_some, String.toList_ofList,
    readValue_write hj hlen hstops, Option.bind_some, if_pos hj]
  rfl

theorem isBlank_obj (fields : List (String × Json)) :
    isBlank (utf8 (dump true (.obj fields))) = false := by
  rw [dump, write_obj, utf8_ofList, List.flatMap_cons]
  rfl

/-- Two objects of a file are read line by line. -/
theorem documents_twoLines {fs gs : List (String × Json)} (hj : (obj fs).Plain)
    (hk : (obj gs).Plain) (hsj : (obj fs).Shallow 64) (hsk : (obj gs).Shallow 64)
    (hnodes : (obj fs).nodes + (obj gs).nodes ≤ kNodesMax) :
    documents compact (twoLines (.obj fs) (.obj gs)) = .ok [.obj fs, .obj gs] := by
  have hfirst : parseJson compact (utf8 (dump true (.obj fs))) 0 = .ok (.obj fs, 0 + (obj fs).nodes) :=
    parseJson_dump lawful_compact true hj hsj (by omega)
  have hsecond : parseJson compact (utf8 (dump true (.obj gs))) (0 + (obj fs).nodes) =
      .ok (.obj gs, 0 + (obj fs).nodes + (obj gs).nodes) :=
    parseJson_dump lawful_compact true hk hsk (by omega)
  have hwhole : parseJson compact (twoLines (.obj fs) (.obj gs)) 0 = .error (.json parseError) := by
    have hrun := @foldlM_callback _ hj.sorted 0 0 []
      (fun e he => by simpa using hsj 0 e he) (by omega)
    rw [parseJson, show compact.sax (twoLines (.obj fs) (.obj gs)) = _ from saxCompact_twoLines hj _]
    simp only [hrun]
  have hrooms : (0 : ℕ) ≠ kKernelsMax ∧ 1 ≠ kKernelsMax := by decide
  simp only [documents, hwhole, parseError, Bool.true_eq_false, if_false, twoLines_splitOn hj hk,
    List.foldlM_cons, List.foldlM_nil, addRecord, isBlank_obj, Bool.false_eq_true, List.length_nil,
    List.length_singleton, List.nil_append, hrooms, hfirst, hsecond, ok_bind]
  rfl

end CuTracer.Plan
