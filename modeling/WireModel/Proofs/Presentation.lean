import WireModel.Proofs.Acceptance

namespace WireModel

open Outcome

section Targets

variable (t t' : Target)

theorem Rule.verdict_ofKind_target (f : String) (k : Kind) :
    verdict (ofKind t f k) = verdict (ofKind t' f k) := by
  cases k <;> rfl

theorem Rule.verdict_ofElement_target (f : String) (k : Kind) :
    verdict (ofElement t f k) = verdict (ofElement t' f k) := by
  cases k <;> rfl

/-- Whether a field can be converted, and why not, depends on the field alone. -/
theorem Conversion.verdict_ofField_target (field : FieldSpec) (r r' : Representation)
    (hint hint' : Option String) :
    verdict (ofField t field r hint) = verdict (ofField t' field r' hint') := by
  obtain ⟨name, shape, tag⟩ := field
  cases shape with
  | single k => exact verdict_bind_congr (Rule.verdict_ofKind_target t t' name k) fun _ _ => rfl
  | optional k => exact verdict_bind_congr (Rule.verdict_ofKind_target t t' name k) fun _ _ => rfl
  | repeated k =>
    exact verdict_bind_congr (Rule.verdict_ofElement_target t t' name k) fun _ _ => rfl
  | map key k =>
    apply verdict_bind_right
    intro _
    exact verdict_bind_congr (Rule.verdict_ofElement_target t t' name k) fun _ _ => rfl
  | stream s => rfl

theorem Selection.verdict_ofShape_target (f : String) (shape : Shape) :
    verdict (ofShape t f shape) = verdict (ofShape t' f shape) := by
  have hconversion (u : Target) := verdict_ofShape u ⟨f, shape, none⟩ (.value "" "") none
  exact (hconversion t).trans
    ((Conversion.verdict_ofField_target t t' _ _ _ _ _).trans (hconversion t').symm)

theorem FieldSpec.verdict_describe_target (field : FieldSpec) (hint hint' : Option String) :
    verdict (field.describe t hint) = verdict (field.describe t' hint') := by
  rw [verdict_describe t field (.value "" "") hint, verdict_describe t' field (.value "" "") hint']
  exact Conversion.verdict_ofField_target t t' _ _ _ _ _

end Targets

namespace Generator

variable (s : Schema) (a b : Settings)

theorem verdict_describeProperty (n : TypeName) (p : Property) :
    verdict ((s.generator a).describeProperty n p) =
      verdict ((s.generator b).describeProperty n p) := by
  have hspec : (s.generator a).specOf n p = (s.generator b).specOf n p := by
    cases p <;> rfl
  rw [describeProperty, describeProperty, hspec]
  apply verdict_bind_right
  intro spec
  rw [verdict_bind_pure, verdict_bind_pure]
  exact FieldSpec.verdict_describe_target _ _ spec _ _

theorem verdict_describeScoped (n : TypeName) (m : Message) :
    verdict ((s.generator a).describeScoped n m) =
      verdict ((s.generator b).describeScoped n m) := by
  rw [describeScoped, describeScoped, verdict_bind_pure, verdict_bind_pure]
  exact verdict_mapM_congr (verdict_describeProperty s a b n)

theorem verdict_describeMessage (n : TypeName) :
    verdict ((s.generator a).describeMessage n) =
      verdict ((s.generator b).describeMessage n) := by
  simp only [describeMessage, Schema.generator]
  split
  · exact verdict_describeScoped s a b _ _
  · rfl

theorem verdict_describeAlternative (n : TypeName) (f : Field) :
    verdict ((s.generator a).describeAlternative n f) =
      verdict ((s.generator b).describeAlternative n f) := by
  apply verdict_bind_right
  intro shape
  cases shape with
  | single k =>
    apply verdict_bind_congr (Rule.verdict_ofKind_target _ _ f.name k)
    intro _ _
    exact verdict_bind_congr (Selection.verdict_ofShape_target _ _ f.name _) fun _ _ => rfl
  | _ => rfl

theorem verdict_describeUnion (o : ScopedOneOf) :
    verdict ((s.generator a).describeUnion o) = verdict ((s.generator b).describeUnion o) := by
  rw [describeUnion, describeUnion, verdict_bind_pure, verdict_bind_pure]
  exact verdict_mapM_congr (verdict_describeAlternative s a b o.message)

theorem verdict_describeEnum (n : TypeName) (e : Enumeration) :
    verdict ((s.generator a).describeEnum n e) = verdict ((s.generator b).describeEnum n e) := by
  rw [describeEnum, describeEnum]
  cases e.zeroValue? <;> rfl

end Generator

variable {s : Schema} {a b : Settings}

/-- Each part of a run comes to the same end under settings that ask for the same checks. -/
theorem Requirement.check_congr (h : a.validateTags = b.validateTags) (r : Requirement) :
    r.check s a = r.check s b := by
  cases r with
  | names => rfl
  | numbers => rw [check, check, h]
  | procedures => rfl
  | constants => exact verdict_mapM_congr fun e => Generator.verdict_describeEnum s a b e.1 e.2
  | alternatives => exact verdict_mapM_congr (Generator.verdict_describeUnion s a b)
  | fields => exact verdict_mapM_congr fun m => Generator.verdict_describeScoped s a b m.1 m.2

theorem Generator.verdict_ofSchema (h : a.validateTags = b.validateTags) :
    verdict (ofSchema s a) = verdict (ofSchema s b) := by
  rw [ofSchema, ofSchema, h]
  apply verdict_bind_right
  intro symbols
  cases b.validateTags with
  | false => rfl
  | true => exact verdict_bind_right fun _ => rfl

/-- Runs that ask for the same checks fail for the same reason, whatever else their settings say;
so does the description of each message, and the check of the procedures. -/
theorem Schema.generate_error_iff (h : a.validateTags = b.validateTags) :
    (∀ e, s.generate a = .error e ↔ s.generate b = .error e) ∧
    (∀ e, Generator.ofSchema s a = .error e ↔ Generator.ofSchema s b = .error e) ∧
    ∀ g g', Generator.ofSchema s a = .ok g → Generator.ofSchema s b = .ok g' →
      (∀ e, g.checkServices = .error e ↔ g'.checkServices = .error e) ∧
      ∀ n e, g.describeMessage n = .error e ↔ g'.describeMessage n = .error e := by
  refine ⟨?_, verdict_eq_verdict_iff.1 (Generator.verdict_ofSchema h), ?_⟩
  · apply verdict_eq_verdict_iff.1
    rw [verdict_generate, verdict_generate, funext (Requirement.check_congr h)]
  · intro g g' hg hg'
    cases Generator.eq_of_ofSchema hg
    cases Generator.eq_of_ofSchema hg'
    refine ⟨?_, ?_⟩
    · intro e
      rfl
    · intro n
      exact verdict_eq_verdict_iff.1 (Generator.verdict_describeMessage s a b n)

/-- Settings that differ from the defaults in everything but the checks. -/
def Settings.elaborate : Settings where
  compact := true
  modelPackage := "shop.model"
  wirePackage := some "wire"
  javaPackage := some "org.shop"
  outerClass := ""
  wireFile := "wire.proto"
  modelFile := "Model.kt"
  imports := ["org.shop.Tools"]
  countHints := false
  sizeHints := SizeHints.insert {} "Order" "stock" "64"
  naming := {
    accessor := fun name => "f_" ++ name
    capitalized := fun name => "C_" ++ name
    classSymbol := fun t => "K_" ++ t.text
    enumSymbol := fun t => "E_" ++ t.text
    caseConstant := fun name => "X_" ++ name }

/-- A schema in which the keys of a map have no native type. -/
def Schema.unkeyed : Schema where
  package := "shop"
  definitions := [
    .message ⟨"Order", [
      .field { type := { repeated := true, expr := .named "Part" }, name := "parts", tag := 1 },
      .field { type := { expr := .map "uint32" "Missing" }, name := "stock", tag := 2 }]⟩,
    .message ⟨"Part", []⟩,
    .service ⟨"Shop", [.rpc { name := "Buy", inType := "Order", outType := "Part" }]⟩]

theorem Schema.generate_unkeyed :
    Settings.validateTags {} = Settings.elaborate.validateTags ∧
    unkeyed.generate .elaborate = .error (.unsupported "stock" (.scalar .uint32)) ∧
    ∃ g g', Generator.ofSchema unkeyed {} = .ok g ∧
      Generator.ofSchema unkeyed .elaborate = .ok g' ∧ g'.checkServices = .ok () ∧
      g'.describeMessage ⟨"Order"⟩ = .error (.unsupported "stock" (.scalar .uint32)) := by
  have hrun : unkeyed.generate {} = .error (.unsupported "stock" (.scalar .uint32)) := by
    decide +kernel
  have hplain : verdict (Generator.ofSchema unkeyed {}) = .ok () := by decide +kernel
  have helaborate : verdict (Generator.ofSchema unkeyed .elaborate) = .ok () := by decide +kernel
  obtain ⟨g, hg⟩ := verdict_eq_ok_iff.1 hplain
  obtain ⟨g', hg'⟩ := verdict_eq_ok_iff.1 helaborate
  have hsame := generate_error_iff (s := unkeyed) (a := {}) (b := .elaborate) rfl
  refine ⟨rfl, (hsame.1 _).1 hrun, g, g', hg, hg', ?_, ?_⟩
  · cases Generator.eq_of_ofSchema hg'
    decide +kernel
  · apply ((hsame.2.2 g g' hg hg').2 _ _).1
    cases Generator.eq_of_ofSchema hg
    decide +kernel

end WireModel
