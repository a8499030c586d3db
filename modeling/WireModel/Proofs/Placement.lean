import WireModel.Proofs.Acceptance

namespace WireModel

open Outcome

/-- The alternatives of all oneofs, each with the message that it stands in. -/
def Schema.alternatives (s : Schema) : List (TypeName × Field) :=
  s.oneOfs.flatMap fun o => o.oneOf.fields.map fun f => (o.message, f)

/-- The first definition that cannot be described is an alternative in a message. -/
structure Schema.StopsAt (s : Schema) (settings : Settings) (n : TypeName) (f : Field) : Prop where
  procedures : Requirement.procedures.Met s settings
  constants : Requirement.constants.Met s settings
  earlier : ∃ before after, s.alternatives = before ++ (n, f) :: after ∧
    ∀ a ∈ before, a.2.type.FitsAlternative s.symbols a.1
  unfit : ¬ f.type.FitsAlternative s.symbols n

/-- An error about parts of a run that do not fit together. -/
def GenerationError.IsInternal : GenerationError → Prop
  | .misplaced _ _ | .unknownMessage _ => True
  | .schema _ | .unsupported _ _ | .rpcWithoutMessage _ _ => False

variable {s : Schema} {settings : Settings} {e : GenerationError}

namespace Generator

variable {g : Generator} {n : TypeName} {f : Field} {m : Message} {shape : Shape}

theorem not_isInternal_of_checkServices (h : g.checkServices = .error e) : ¬ e.IsInternal := by
  obtain ⟨_, _, _, _, _, he⟩ := forM_eq_error h
  obtain ⟨k, rfl | rfl⟩ := error_of_checkRpc he
  · exact id
  · exact id

theorem not_isInternal_of_enums (h : g.enums = .error e) : ¬ e.IsInternal := by
  obtain ⟨_, _, he⟩ := exists_mem_of_mapM_eq_error h
  cases error_of_describeEnum he
  exact id

theorem not_isInternal_of_describeScoped (h : g.describeScoped n m = .error e) :
    ¬ e.IsInternal := by
  obtain ⟨p, _, he⟩ := exists_mem_of_mapM_eq_error (bind_pure_eq_error_iff.1 h)
  cases p with
  | field f =>
    obtain ⟨_, _, rfl⟩ | ⟨_, rfl⟩ := error_of_describeProperty he
    · exact id
    · exact id
  -- In a message a oneof is only named; its alternatives are described with the unions.
  | oneOf o => exact (not_succeeds he (describeProperty_oneOf_succeeds g n o)).elim

theorem not_isInternal_of_messages (h : g.messages = .error e) : ¬ e.IsInternal := by
  obtain ⟨_, _, he⟩ := exists_mem_of_mapM_eq_error h
  exact not_isInternal_of_describeScoped he

theorem describeMessage_ne_misplaced (g : Generator) (n : TypeName) (field : String)
    (shape : Shape) : g.describeMessage n ≠ .error (.misplaced field shape) := by
  intro h
  rw [describeMessage] at h
  split at h
  · exact not_isInternal_of_describeScoped h trivial
  · cases h

theorem verdict_unions (g : Generator) :
    verdict g.unions =
      g.schema.alternatives.forM fun a => verdict (g.describeAlternative a.1 a.2) := by
  rw [unions, verdict_mapM, Schema.alternatives, forM_flatMap]
  apply congrArg
  funext o
  rw [describeUnion, verdict_bind_pure, verdict_mapM, List.forM_eq_forM, List.forM_eq_forM,
    List.forM_map]

/-- Parts that do not fit together show where the oneofs are described, and nowhere else. -/
theorem generate_eq_error_iff (he : e.IsInternal) :
    g.generate = .error e ↔
      g.checkServices = .ok () ∧ verdict g.enums = .ok () ∧ verdict g.unions = .error e := by
  rw [← verdict_eq_error_iff, verdict_generate]
  simp only [bind_eq_error_iff]
  refine ⟨?_, ?_⟩
  · rintro (h | ⟨_, hs, h | ⟨_, hc, h | ⟨_, _, h | ⟨_, _, h⟩⟩⟩⟩)
    · exact (not_isInternal_of_checkServices h he).elim
    · exact (not_isInternal_of_enums (verdict_eq_error_iff.1 h) he).elim
    · exact ⟨hs, hc, h⟩
    · exact (not_isInternal_of_messages (verdict_eq_error_iff.1 h) he).elim
    · exact (pure_ne_error h).elim
  · rintro ⟨hs, hc, h⟩
    exact .inr ⟨(), hs, .inr ⟨(), hc, .inl h⟩⟩

theorem describeAlternative_eq_misplaced_iff {field : String} :
    g.describeAlternative n f = .error (.misplaced field shape) ↔
      f.name = field ∧ g.symbols.shapeOf f.type (some n) f.name = .ok shape ∧
        ∀ k, shape ≠ .single k := by
  refine ⟨?_, ?_⟩
  · intro h
    obtain ⟨_, _, he⟩ | ⟨_, he⟩ | ⟨shape', hs, hk, he⟩ := error_of_describeAlternative h
    · cases he
    · cases he
    · cases he
      exact ⟨rfl, hs, hk⟩
  · rintro ⟨rfl, hs, hk⟩
    rw [describeAlternative, hs]
    cases shape with
    | single k => exact (hk k rfl).elim
    | _ => rfl

theorem unions_eq_misplaced_iff {field : String} :
    verdict g.unions = .error (.misplaced field shape) ↔
      ∃ before a after, g.schema.alternatives = before ++ a :: after ∧
        (∀ b ∈ before, b.2.type.FitsAlternative g.symbols b.1) ∧ a.2.name = field ∧
        g.symbols.shapeOf a.2.type (some a.1) a.2.name = .ok shape ∧
        ∀ k, shape ≠ .single k := by
  rw [verdict_unions, forM_eq_error_iff]
  simp only [verdict_eq_ok_iff, verdict_eq_error_iff, describeAlternative_succeeds_iff,
    describeAlternative_eq_misplaced_iff]

theorem generate_ne_unknownMessage (g : Generator) (n : TypeName) :
    g.generate ≠ .error (.unknownMessage n) := by
  intro h
  have hinternal : (GenerationError.unknownMessage n).IsInternal := trivial
  have hunions := ((generate_eq_error_iff hinternal).1 h).2.2
  rw [verdict_unions] at hunions
  obtain ⟨_, a, _, _, _, ha⟩ := forM_eq_error hunions
  obtain ⟨_, _, he⟩ | ⟨_, he⟩ | ⟨_, _, _, he⟩ :=
    error_of_describeAlternative (verdict_eq_error_iff.1 ha)
  all_goals cases he

end Generator

theorem Symbols.shapeOf_ne_single_iff {t : Symbols} {type : FieldType} {scope : Option TypeName}
    {f : String} {shape : Shape} (h : t.shapeOf type scope f = .ok shape) :
    (∀ k, shape ≠ .single k) ↔
      ∃ k, shape = .optional k ∨ shape = .repeated k ∨ ∃ key, shape = .map key k := by
  cases shape with
  | stream inner => exact ((ne_stream_of_shapeOf h).1 inner rfl).elim
  | _ => simp

theorem Schema.not_fitsAlternative {n : TypeName} {f : Field} {shape : Shape}
    (hs : s.symbols.shapeOf f.type (some n) f.name = .ok shape) (hk : ∀ k, shape ≠ .single k) :
    ¬ f.type.FitsAlternative s.symbols n := by
  intro hfits
  obtain ⟨k, hsingle, _⟩ := (Symbols.shapeOf_single_iff f.name).2 hfits
  cases hs.symm.trans hsingle
  exact hk k rfl

/-- A shape is misplaced only in a oneof: the description of a message and the check of the
procedures never meet one, and a run ends at one exactly if the first definition that cannot be
described is an alternative with such a shape. -/
theorem Schema.misplaced_alternative {g : Generator} (h : Generator.ofSchema s settings = .ok g) :
    (∀ n field shape, g.describeMessage n ≠ .error (.misplaced field shape)) ∧
    (∀ field shape, g.checkServices ≠ .error (.misplaced field shape)) ∧
    (∀ n, g.generate ≠ .error (.unknownMessage n)) ∧
    (∀ field shape, g.generate = .error (.misplaced field shape) ↔
      ∃ n f, s.StopsAt settings n f ∧ f.name = field ∧
        g.symbols.shapeOf f.type (some n) f.name = .ok shape ∧
        ∃ k, shape = .optional k ∨ shape = .repeated k ∨ ∃ key, shape = .map key k) ∧
    ∀ (t : Symbols) type scope field shape, t.shapeOf type scope field = .ok shape →
      (∀ inner, shape ≠ .stream inner) ∧ ∀ n, shape.element ≠ .union n := by
  cases Generator.eq_of_ofSchema h
  refine ⟨Generator.describeMessage_ne_misplaced _, ?_,
    Generator.generate_ne_unknownMessage _, ?_, fun _ _ _ _ _ => Symbols.ne_stream_of_shapeOf⟩
  · intro field shape hs
    exact Generator.not_isInternal_of_checkServices hs trivial
  · intro field shape
    have hinternal : (GenerationError.misplaced field shape).IsInternal := trivial
    have hprocedures : (s.generator settings).checkServices = .ok () ↔
        Requirement.procedures.Met s settings := Requirement.procedures.check_eq_ok_iff
    have hconstants : verdict (s.generator settings).enums = .ok () ↔
        Requirement.constants.Met s settings := Requirement.constants.check_eq_ok_iff
    rw [Generator.generate_eq_error_iff hinternal, hprocedures, hconstants,
      Generator.unions_eq_misplaced_iff]
    refine ⟨?_, ?_⟩
    · rintro ⟨hp, hc, before, ⟨n, f⟩, after, hsplit, hfits, hname, hs, hk⟩
      refine ⟨n, f, ⟨hp, hc, ⟨before, after, hsplit, hfits⟩, ?_⟩,
        hname, hs, (Symbols.shapeOf_ne_single_iff hs).1 hk⟩
      exact not_fitsAlternative hs hk
    · rintro ⟨n, f, ⟨hp, hc, ⟨before, after, hsplit, hfits⟩, _⟩, hname, hs, hk⟩
      exact ⟨hp, hc, before, (n, f), after, hsplit, hfits, hname, hs,
        (Symbols.shapeOf_ne_single_iff hs).2 hk⟩

theorem Schema.misplaced_coins :
    ∃ g, Generator.ofSchema repeatedAlternative {} = .ok g ∧
      g.generate = .error (.misplaced "coins" (.repeated (.scalar .int32))) ∧
      (∃ n f, repeatedAlternative.StopsAt {} n f ∧ f.name = "coins") ∧
      ∀ n field shape, g.describeMessage n ≠ .error (.misplaced field shape) := by
  have hg : Generator.ofSchema repeatedAlternative {} = .ok (repeatedAlternative.generator {}) :=
    Generator.ofSchema_eq_ok_iff.2 ⟨by decide +kernel, by simp, rfl⟩
  have hrun : (repeatedAlternative.generator {}).generate =
      .error (.misplaced "coins" (.repeated (.scalar .int32))) := rfl
  obtain ⟨hdescribe, _, _, hmisplaced, _⟩ := misplaced_alternative hg
  obtain ⟨n, f, hstops, hname, _⟩ := (hmisplaced _ _).1 hrun
  exact ⟨_, hg, hrun, ⟨n, f, hstops, hname⟩, hdescribe⟩

end WireModel
