import CuTracer.Library.Fallible
import CuTracer.Library.JsonMap
import CuTracer.Library.JsonReader
import CuTracer.Library.Sha256
import CuTracer.Service.Suppression

/-! The identity under which a verdict is reused. The digest of a suppression policy is one of its rules
and of which of them are active, so that policies with one digest treat all findings alike. -/

namespace CuTracer.Service

/-! ### Digests -/

/-- `json.dumps(payload, sort_keys=True, separators=(",", ":")).encode()`. -/
def canonicalBytes (payload : Json) : List UInt8 := utf8 (Json.dump true payload.ordered)

def canonicalDigest (payload : Json) : String := Sha256.hash256HexString (canonicalBytes payload)

/-- Payloads without floats that are encoded alike are the same maps. -/
theorem ordered_eq_of_canonicalBytes {v w : Json} (hv : v.Exact) (hw : w.Exact)
    (h : canonicalBytes v = canonicalBytes w) : v.ordered = w.ordered := by
  have hexact {u : Json} (hu : u.Exact) : u.ordered.Exact :=
    Json.everywhere_ordered (fun _ => rfl) (fun _ => rfl) hu
  exact Json.dump_injective true (hexact hv) (hexact hw) (utf8_injective h)

/-! ### Rules -/

def stringOrNull (o : Option String) : Json := (o.map Json.str).getD .null

variable (rule : SuppressionRule)

def SuppressionRule.fields : List (String × Json) :=
  [("rule_id", .str rule.ruleId), ("version", .int rule.version), ("reason", .str rule.reason),
    ("owner", .str rule.owner), ("kernel_pattern", stringOrNull rule.kernelPattern),
    ("tools", .arr (rule.tools.map .str)), ("error_types", .arr (rule.errorTypes.map .str)),
    ("expires_on", stringOrNull rule.expiresOn), ("tracking_ticket", .str rule.trackingTicket),
    ("reviewed_by", .str rule.reviewedBy), ("reviewed_on", stringOrNull rule.reviewedOn),
    ("review_due_on", stringOrNull rule.reviewDueOn), ("permanent", .bool rule.permanent)]

/-- `SuppressionRule.to_dict`. -/
def SuppressionRule.toJson : Json := .obj rule.fields

/-- Whether a rule is active, as it is bound by the digest. -/
def boundActivity (currentDate : Option Date) : Bool :=
  match rule.expiresOn with
  | none => true
  | some expiresOn =>
    match currentDate with
    | none => false
    | some currentDate => (parseYmdDate expiresOn).any currentDate.before

def boundRule (currentDate : Option Date) (rule : SuppressionRule) : Json :=
  .obj [("rule", rule.toJson), ("active", .bool (boundActivity rule currentDate))]

variable (rules : List SuppressionRule)

/-- What the digest of rules on a date is the digest of. -/
def policyPayload (currentDate : Option Date) : Json :=
  .obj [("schema_version", .int 2), ("rules", .arr (rules.map (boundRule currentDate)))]

inductive SuppressionError where
  /-- `today must be YYYY-MM-DD, got today`. -/
  | today (today : String)

/-- The date that `today` is, if it is given. -/
def currentDate : Option String → Except SuppressionError (Option Date)
  | none => .ok none
  | some today =>
    match parseYmdDate today with
    | some date => .ok (some date)
    | none => .error (.today today)

def suppressionPolicyDigest (today : Option String) :
    Except SuppressionError String := do
  return canonicalDigest (policyPayload rules (← currentDate today))

def encodedPolicy (today : Option String) : Except SuppressionError (List UInt8) := do
  return canonicalBytes (policyPayload rules (← currentDate today))

/-- `SuppressionPolicy.apply`. -/
def applyPolicy (search : String → String → Bool) (rules : List SuppressionRule) (findings : List FindingRecord)
    (today : Option String) : Except SuppressionError SuppressionOutcome := do
  return applyRules search rules findings (← currentDate today)

/-! ### Payloads tell policies apart -/

theorem boundActivity_eq (rule : SuppressionRule) (currentDate : Option Date) :
    boundActivity rule currentDate = ruleIsActive rule currentDate := by
  unfold boundActivity ruleIsActive
  cases rule.expiresOn with
  | none => rfl
  | some expiresOn =>
    cases currentDate with
    | none => rfl
    | some today =>
      dsimp only
      cases parseYmdDate expiresOn <;> rfl

section Fields

variable (o o' : Option String) (ss ss' : List String)

theorem exact_stringOrNull : (stringOrNull o).Exact := by
  cases o <;> rfl

theorem exact_strings : (Json.arr (ss.map .str)).Exact := by
  refine (Json.everywhere_arr _ _).mpr ⟨rfl, ?_⟩
  intro v hv
  obtain ⟨s, -, rfl⟩ := List.mem_map.mp hv
  rfl

@[simp] theorem ordered_stringOrNull : (stringOrNull o).ordered = stringOrNull o := by
  cases o <;> rfl

@[simp] theorem ordered_strings : (Json.arr (ss.map .str)).ordered = .arr (ss.map .str) := by
  rw [Json.ordered, Json.orderedItems_eq, List.map_map]
  rfl

variable {o o' ss ss'}

@[simp] theorem stringOrNull_inj : stringOrNull o = stringOrNull o' ↔ o = o' := by
  cases o <;> cases o' <;> simp [stringOrNull]

@[simp] theorem map_str_inj : ss.map Json.str = ss'.map Json.str ↔ ss = ss' :=
  (List.map_injective_iff.mpr fun _ _ => Json.str.inj).eq_iff

end Fields

theorem exact_toJson : rule.toJson.Exact := by
  refine (Json.everywhere_obj _ _).mpr ⟨rfl, ?_⟩
  simp only [SuppressionRule.fields, List.forall_mem_cons]
  exact ⟨rfl, rfl, rfl, rfl, exact_stringOrNull _, exact_strings _, exact_strings _, exact_stringOrNull _, rfl, rfl,
    exact_stringOrNull _, exact_stringOrNull _, rfl, nofun⟩

theorem exact_policyPayload (rules : List SuppressionRule) (currentDate : Option Date) :
    (policyPayload rules currentDate).Exact := by
  have hrule (rule : SuppressionRule) : (boundRule currentDate rule).Exact := by
    refine (Json.everywhere_obj _ _).mpr ⟨rfl, ?_⟩
    simp only [List.forall_mem_cons]
    exact ⟨exact_toJson rule, rfl, nofun⟩
  have hrules : (Json.arr (rules.map (boundRule currentDate))).Exact := by
    refine (Json.everywhere_arr _ _).mpr ⟨rfl, ?_⟩
    intro v hv
    obtain ⟨rule, -, rfl⟩ := List.mem_map.mp hv
    exact hrule rule
  refine (Json.everywhere_obj _ _).mpr ⟨rfl, ?_⟩
  simp only [List.forall_mem_cons]
  exact ⟨rfl, hrules, nofun⟩

attribute [local simp] Dict.lookup Json.ordered

/-- Every field of a rule is a field of its record. -/
theorem toJson_injective {r s : SuppressionRule} (h : r.toJson.ordered = s.toJson.ordered) : r = s := by
  have hnodup (rule : SuppressionRule) : (rule.fields.map Prod.fst).Nodup := by
    simp [SuppressionRule.fields]
  have hfield := Json.field_eq_of_ordered_eq (hnodup r) (hnodup s) h
  simp only [Json.field, SuppressionRule.fields] at hfield
  have hruleId : r.ruleId = s.ruleId := by simpa using hfield "rule_id"
  have hversion : r.version = s.version := by simpa using hfield "version"
  have hreason : r.reason = s.reason := by simpa using hfield "reason"
  have howner : r.owner = s.owner := by simpa using hfield "owner"
  have hkernelPattern : r.kernelPattern = s.kernelPattern := by simpa using hfield "kernel_pattern"
  have htools : r.tools = s.tools := by simpa [-Json.ordered] using hfield "tools"
  have herrorTypes : r.errorTypes = s.errorTypes := by simpa [-Json.ordered] using hfield "error_types"
  have hexpiresOn : r.expiresOn = s.expiresOn := by simpa using hfield "expires_on"
  have htrackingTicket : r.trackingTicket = s.trackingTicket := by simpa using hfield "tracking_ticket"
  have hreviewedBy : r.reviewedBy = s.reviewedBy := by simpa using hfield "reviewed_by"
  have hreviewedOn : r.reviewedOn = s.reviewedOn := by simpa using hfield "reviewed_on"
  have hreviewDueOn : r.reviewDueOn = s.reviewDueOn := by simpa using hfield "review_due_on"
  have hpermanent : r.permanent = s.permanent := by simpa using hfield "permanent"
  cases r
  cases s
  dsimp only at *
  subst hruleId hversion hreason howner hkernelPattern htools herrorTypes hexpiresOn htrackingTicket hreviewedBy
    hreviewedOn hreviewDueOn hpermanent
  rfl

/-- A bound rule tells the rule and whether it is active. -/
theorem boundRule_injective {r s : SuppressionRule} {d e : Option Date}
    (h : (boundRule d r).ordered = (boundRule e s).ordered) :
    r = s ∧ ruleIsActive r d = ruleIsActive s e := by
  have hfield := Json.field_eq_of_ordered_eq (by simp) (by simp) h
  have hrule : r.toJson.ordered = s.toJson.ordered := by
    simpa [Json.field] using hfield "rule"
  have hactive : boundActivity r d = boundActivity s e := by
    simpa [Json.field] using hfield "active"
  rw [boundActivity_eq, boundActivity_eq] at hactive
  exact ⟨toJson_injective hrule, hactive⟩

/-- Payloads that are the same maps are of the same rules, with the same ones active. -/
theorem policyPayload_injective {rules rules' : List SuppressionRule} {d e : Option Date}
    (h : (policyPayload rules d).ordered = (policyPayload rules' e).ordered) :
    rules = rules' ∧ ∀ rule ∈ rules, ruleIsActive rule d = ruleIsActive rule e := by
  have hfield := Json.field_eq_of_ordered_eq (by simp) (by simp) h
  have hrules : (rules.map (boundRule d)).map Json.ordered = (rules'.map (boundRule e)).map Json.ordered := by
    simpa [Json.field, Json.orderedItems_eq] using hfield "rules"
  clear h hfield
  induction rules generalizing rules' with
  | nil =>
    cases rules' with
    | nil => exact ⟨rfl, List.forall_mem_nil _⟩
    | cons rule' rules' => cases hrules
  | cons rule rules ih =>
    cases rules' with
    | nil => cases hrules
    | cons rule' rules' =>
      simp only [List.map_cons, List.cons.injEq] at hrules
      obtain ⟨rfl, hactive⟩ := boundRule_injective hrules.1
      obtain ⟨rfl, hactives⟩ := ih hrules.2
      exact ⟨rfl, List.forall_mem_cons.mpr ⟨hactive, hactives⟩⟩

theorem applyRules_congr (search : String → String → Bool) {rules : List SuppressionRule} {d e : Option Date}
    (h : ∀ rule ∈ rules, ruleIsActive rule d = ruleIsActive rule e) (findings : List FindingRecord) :
    applyRules search rules findings d = applyRules search rules findings e := by
  have hfiring (finding : FindingRecord) : firing search rules d finding = firing search rules e finding := by
    unfold firing
    induction rules with
    | nil => rfl
    | cons rule rules ih =>
      obtain ⟨hrule, hrules⟩ := List.forall_mem_cons.mp h
      rw [List.find?_cons, List.find?_cons, hrule, ih hrules]
  unfold applyRules
  simp only [hfiring]

/-- Policies and dates with one digest keep and suppress the same findings, for the same reasons. -/
theorem equal_digests_suppress_alike (search : String → String → Bool) {rules rules' : List SuppressionRule}
    {today today' : Option String} {digest : String}
    (hsha : Set.InjOn Sha256.hash256HexString
      {bytes | encodedPolicy rules today = .ok bytes ∨ encodedPolicy rules' today' = .ok bytes})
    (hdigest : suppressionPolicyDigest rules today = .ok digest)
    (hdigest' : suppressionPolicyDigest rules' today' = .ok digest) (findings : List FindingRecord) :
    ∃ outcome, applyPolicy search rules findings today = .ok outcome ∧
      applyPolicy search rules' findings today' = .ok outcome := by
  unfold suppressionPolicyDigest at hdigest hdigest'
  obtain ⟨d, hd, hdigest⟩ := bind_ok hdigest
  obtain ⟨d', hd', hdigest'⟩ := bind_ok hdigest'
  have hmem : encodedPolicy rules today = .ok (canonicalBytes (policyPayload rules d)) := by
    rw [encodedPolicy, hd]
    rfl
  have hmem' : encodedPolicy rules' today' = .ok (canonicalBytes (policyPayload rules' d')) := by
    rw [encodedPolicy, hd']
    rfl
  have hhash : canonicalDigest (policyPayload rules d) = canonicalDigest (policyPayload rules' d') :=
    (Except.ok.inj hdigest).trans (Except.ok.inj hdigest').symm
  have hbytes := hsha (.inl hmem) (.inr hmem') hhash
  obtain ⟨rfl, hactive⟩ := policyPayload_injective (ordered_eq_of_canonicalBytes (exact_policyPayload rules d)
    (exact_policyPayload rules' d') hbytes)
  refine ⟨applyRules search rules findings d, ?_, ?_⟩
  · rw [applyPolicy, hd]
    rfl
  · rw [applyPolicy, hd', applyRules_congr search hactive]
    rfl

theorem parseYmdDate_none : ∀ d ∈ (none : Option String), (parseYmdDate d).isSome := by simp

/-- A rule for a tool, until the end of a year. -/
def yearRule : SuppressionRule where
  ruleId := "known-noise"
  version := 1
  reason := "noise"
  owner := "o"
  tools := ["compute_sanitizer/initcheck"]
  expiresOn := some "2026-12-31"
  expires_date := by
    intro d hd
    cases hd
    decide +kernel
  reviewed_date := parseYmdDate_none
  reviewDue_date := parseYmdDate_none
  permanent_stays := by simp

theorem equal_digests_suppress_alike_year : ∃ outcome,
    applyPolicy (fun _ _ => false) [yearRule] [⟨"compute_sanitizer/initcheck", "e", none, none, 1, "", ""⟩]
        (some "2026-09-01") = .ok outcome ∧
      applyPolicy (fun _ _ => false) [yearRule] [⟨"compute_sanitizer/initcheck", "e", none, none, 1, "", ""⟩]
        (some "2026-10-15") = .ok outcome := by
  have hactive : boundActivity yearRule (some (2026, 10, 15)) = boundActivity yearRule (some (2026, 9, 1)) := by
    decide +kernel
  have hpayload : policyPayload [yearRule] (some (2026, 10, 15)) = policyPayload [yearRule] (some (2026, 9, 1)) := by
    simp only [policyPayload, boundRule, List.map_cons, hactive]
    rfl
  have hencoded : encodedPolicy [yearRule] (some "2026-10-15") = encodedPolicy [yearRule] (some "2026-09-01") :=
    congrArg (fun payload => Except.ok (canonicalBytes payload)) hpayload
  have hdigest : suppressionPolicyDigest [yearRule] (some "2026-10-15") =
      suppressionPolicyDigest [yearRule] (some "2026-09-01") :=
    congrArg (fun payload => Except.ok (canonicalDigest payload)) hpayload
  refine equal_digests_suppress_alike (fun _ _ => false) ?_ rfl hdigest _
  rw [hencoded]
  intro a ha b hb _
  exact Except.ok.inj ((or_self_iff.mp ha).symm.trans (or_self_iff.mp hb))

end CuTracer.Service
