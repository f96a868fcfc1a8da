import DomainModel.Model.Format
import DomainModel.Proofs.Format.Expr

/-! # Written models are read back

Every record of the format has a `codec`: its fields are found under their keys, and what they hold
is read back by the codecs of the fields. -/

namespace DomainModel

open Json (Codec Members Plain depth_object_le object_ne_null ofOption ofWord_ne_null)

/-! ### Strategic design -/

theorem BoundedContext.codec : Codec BoundedContext.toJson BoundedContext.ofJson? := by
  refine .record fun c => ⟨_, rfl, by simp, ?_, fun room h => ?_⟩
  · simp [Plain.string, (Codec.word false).plain, Codec.handles.plain, Codec.link.plain]
  simp only [List.forall_mem_cons] at h
  obtain ⟨hname, htype, haggregates, hmodules, hantiCorruptions, hrealizes, howner, -⟩ := h
  rw [Codec.string.required hname, (Codec.word false).withDefault htype,
    Codec.handles.withDefault haggregates, Codec.handles.withDefault hmodules,
    Codec.handles.withDefault hantiCorruptions, Codec.handles.withDefault hrealizes,
    Codec.link.optional howner]
  rfl

theorem Module.codec : Codec Module.toJson Module.ofJson? := by
  refine .record fun n => ⟨_, rfl, by simp, ?_, fun room h => ?_⟩
  · simp [Plain.string, Codec.handles.plain]
  simp only [List.forall_mem_cons] at h
  obtain ⟨hname, haggregates, -⟩ := h
  rw [Codec.string.required hname, Codec.handles.withDefault haggregates]
  rfl

theorem ContextMap.codec : Codec ContextMap.toJson ContextMap.ofJson? := by
  refine .record fun n => ⟨_, rfl, by simp, ?_, fun room h => ?_⟩
  · simp [Plain.string, ((Codec.word false).option ofWord_ne_null).plain, Codec.handles.plain]
  simp only [List.forall_mem_cons] at h
  obtain ⟨hname, htype, hcontexts, hrelationships, -⟩ := h
  rw [Codec.string.required hname, ((Codec.word false).option ofWord_ne_null).optional htype,
    Codec.handles.withDefault hcontexts, Codec.handles.withDefault hrelationships]
  rfl

theorem Relationship.codec : Codec Relationship.toJson Relationship.ofJson? := by
  refine .tagged fun r => ?_
  cases r with
  | symmetric pattern a b =>
    refine ⟨_, rfl, by simp, ?_, fun room h => ?_⟩
    · simp [Plain.string, (Codec.word true).plain, Codec.link.plain]
    simp only [List.forall_mem_cons] at h
    obtain ⟨htag, hpattern, hparticipant1, hparticipant2, -⟩ := h
    simp [Codec.tag htag, (Codec.word true).required hpattern,
      Codec.link.optional hparticipant1,
      Codec.link.optional hparticipant2]
  | upstreamDownstream s =>
    refine ⟨_, rfl, by simp, ?_, fun room h => ?_⟩
    · simp [Plain.string, Plain.bool, (Codec.word true).list.plain, Codec.handles.plain,
        Codec.link.plain]
    simp only [List.forall_mem_cons] at h
    obtain ⟨htag, hsupplier, hupstream, hdownstream, hupstreamRoles, hdownstreamRoles, hexposed,
      -⟩ := h
    simp [Codec.tag htag, supplyOfMembers?, Codec.bool.withDefault hsupplier,
      Codec.link.optional hupstream,
      Codec.link.optional hdownstream,
      (Codec.word true).list.withDefault hupstreamRoles,
      (Codec.word true).list.withDefault hdownstreamRoles, Codec.handles.withDefault hexposed]

/-! ### Aggregates and invariants -/

theorem Invariant.codec : Codec Invariant.toJson Invariant.ofJson? := by
  refine .record fun i => ⟨_, rfl, by simp, ?_, fun room h => ?_⟩
  · simp [Plain.string, Codec.plain Expr.codec]
  simp only [List.forall_mem_cons] at h
  obtain ⟨hname, hexpression, -⟩ := h
  rw [Codec.string.required hname, Codec.required Expr.codec hexpression]
  rfl

theorem Aggregate.codec : Codec Aggregate.toJson Aggregate.ofJson? := by
  refine .record fun a => ⟨_, rfl, by simp, ?_, fun room h => ?_⟩
  · simp [Plain.string, Codec.link.plain, Codec.handles.plain,
      (Codec.list Invariant.codec).plain]
  simp only [List.forall_mem_cons] at h
  obtain ⟨hname, hcontext, hobjects, hinvariants, -⟩ := h
  rw [Codec.string.required hname, Codec.link.optional hcontext,
    Codec.handles.withDefault hobjects, (Codec.list Invariant.codec).withDefault hinvariants]
  rfl

/-! ### Parameters and their types -/

theorem TypeTarget.codec : Codec TypeTarget.toJson TypeTarget.ofJson? where
  plain t := by
    cases t with
    | primitive name => exact .object (by simp [Plain.string])
    | domainObject o => exact .object (by simp [Codec.link.plain])
  read_write t room h := by
    cases t with
    | primitive name =>
      obtain ⟨r, rfl, -⟩ := depth_object_le.mp h
      rfl
    | domainObject o =>
      obtain ⟨r, rfl, hr⟩ := depth_object_le.mp h
      have ho := Codec.link.read_write o r (by simpa using hr)
      simp [toJson, ofJson?, Json.choice, ho]

theorem ComplexType.codec : Codec ComplexType.toJson ComplexType.ofJson? := by
  refine .record fun t => ⟨_, rfl, by simp, ?_, fun room h => ?_⟩
  · simp [(Codec.word false).plain, Codec.plain TypeTarget.codec]
  simp only [List.forall_mem_cons] at h
  obtain ⟨hcollection, htarget, -⟩ := h
  rw [(Codec.word false).withDefault hcollection, Codec.required TypeTarget.codec htarget]
  rfl

theorem ComplexType.option_codec :
    Codec (ofOption ComplexType.toJson) fun room => Json.nullable (ComplexType.ofJson? room) :=
  Codec.option ComplexType.codec fun _ => object_ne_null _

theorem Parameter.codec : Codec Parameter.toJson Parameter.ofJson? := by
  refine .record fun p => ⟨_, rfl, by simp, ?_, fun room h => ?_⟩
  · simp [Plain.string, Codec.plain ComplexType.codec]
  simp only [List.forall_mem_cons] at h
  obtain ⟨hname, htype, -⟩ := h
  rw [Codec.string.required hname, Codec.required ComplexType.codec htype]
  rfl

/-! ### Constructors, operations and repositories -/

theorem ConstructorAssignment.codec :
    Codec ConstructorAssignment.toJson ConstructorAssignment.ofJson? := by
  refine .record fun a => ⟨_, rfl, by simp, ?_, fun room h => ?_⟩
  · simp [Plain.string, Codec.plain Expr.codec]
  simp only [List.forall_mem_cons] at h
  obtain ⟨hattribute, hexpression, -⟩ := h
  rw [Codec.string.required hattribute, Codec.required Expr.codec hexpression]
  rfl

theorem Constructor.codec : Codec Constructor.toJson Constructor.ofJson? := by
  refine .record fun c => ⟨_, rfl, by simp, ?_, fun room h => ?_⟩
  · simp [(Codec.list Parameter.codec).plain, (Codec.list ConstructorAssignment.codec).plain]
  simp only [List.forall_mem_cons] at h
  obtain ⟨hparameters, hassignments, -⟩ := h
  rw [(Codec.list Parameter.codec).withDefault hparameters,
    (Codec.list ConstructorAssignment.codec).withDefault hassignments]
  rfl

theorem Constructor.option_codec :
    Codec (ofOption Constructor.toJson) fun room => Json.nullable (Constructor.ofJson? room) :=
  Codec.option Constructor.codec fun _ => object_ne_null _

theorem LeftValue.codec : Codec LeftValue.toJson LeftValue.ofJson? := by
  refine .record fun l => ⟨_, rfl, by simp, ?_, fun room h => ?_⟩
  · simp [Codec.optionalString.plain, Codec.strings.plain]
  simp only [List.forall_mem_cons] at h
  obtain ⟨hhead, hproperties, -⟩ := h
  rw [Codec.optionalString.optional hhead, Codec.strings.withDefault hproperties]
  rfl

theorem Command.codec : Codec Command.toJson Command.ofJson? := by
  refine .tagged fun c => ?_
  cases c with
  | assignment left right =>
    refine ⟨_, rfl, by simp, ?_, fun room h => ?_⟩
    · simp [Plain.string, Codec.plain LeftValue.codec, Codec.plain Expr.codec]
    simp only [List.forall_mem_cons] at h
    obtain ⟨htag, hleft, hright, -⟩ := h
    simp [Codec.tag htag, Codec.required LeftValue.codec hleft, Codec.required Expr.codec hright]
  | other text =>
    refine ⟨_, rfl, by simp, by simp [Plain.string], fun room h => ?_⟩
    simp only [List.forall_mem_cons] at h
    obtain ⟨htag, htext, -⟩ := h
    simp [Codec.tag htag, Codec.string.required htext]

theorem Operation.codec : Codec Operation.toJson Operation.ofJson? := by
  refine .record fun o => ⟨_, rfl, by simp, ?_, fun room h => ?_⟩
  · simp [Plain.string, (Codec.list Parameter.codec).plain, (Codec.list Command.codec).plain,
      Codec.plain ComplexType.option_codec]
  simp only [List.forall_mem_cons] at h
  obtain ⟨hname, hparameters, hreturn, hcommands, -⟩ := h
  rw [Codec.string.required hname, (Codec.list Parameter.codec).withDefault hparameters,
    Codec.optional ComplexType.option_codec hreturn,
    (Codec.list Command.codec).withDefault hcommands]
  rfl

theorem RepositoryOperation.codec :
    Codec RepositoryOperation.toJson RepositoryOperation.ofJson? := by
  refine .record fun o => ⟨_, rfl, by simp, ?_, fun room h => ?_⟩
  · simp [Plain.string, (Codec.list Parameter.codec).plain,
      Codec.plain ComplexType.option_codec]
  simp only [List.forall_mem_cons] at h
  obtain ⟨hname, hparameters, hreturn, -⟩ := h
  rw [Codec.string.required hname, (Codec.list Parameter.codec).withDefault hparameters,
    Codec.optional ComplexType.option_codec hreturn]
  rfl

theorem Repository.codec : Codec Repository.toJson Repository.ofJson? := by
  refine .record fun r => ⟨_, rfl, by simp, ?_, fun room h => ?_⟩
  · simp [Plain.string, (Codec.list RepositoryOperation.codec).plain]
  simp only [List.forall_mem_cons] at h
  obtain ⟨hname, hoperations, -⟩ := h
  rw [Codec.string.required hname, (Codec.list RepositoryOperation.codec).withDefault hoperations]
  rfl

theorem Repository.option_codec :
    Codec (ofOption Repository.toJson) fun room => Json.nullable (Repository.ofJson? room) :=
  Codec.option Repository.codec fun _ => object_ne_null _

/-! ### Entity mappings and uses bindings -/

theorem AliasDeclaration.codec : Codec AliasDeclaration.toJson AliasDeclaration.ofJson? := by
  refine .record fun a => ⟨_, rfl, by simp, ?_, fun room h => ?_⟩
  · simp [Plain.string, Codec.handles.plain]
  simp only [List.forall_mem_cons] at h
  obtain ⟨hname, hreferences, -⟩ := h
  rw [Codec.string.required hname, Codec.handles.withDefault hreferences]
  rfl

theorem AttributePathHead.codec : Codec AttributePathHead.toJson AttributePathHead.ofJson? where
  plain head := by
    cases head with
    | root => exact .string _
    | declared name => exact .object (by simp [Plain.string])
  read_write head room h := by
    cases head with
    | root => rfl
    | declared name =>
      obtain ⟨r, rfl, -⟩ := depth_object_le.mp h
      rfl

theorem AttributePath.codec : Codec AttributePath.toJson AttributePath.ofJson? := by
  refine .record fun p => ⟨_, rfl, by simp, ?_, fun room h => ?_⟩
  · simp [Plain.string, Codec.plain AttributePathHead.codec, Codec.handles.plain]
  simp only [List.forall_mem_cons] at h
  obtain ⟨hhead, hreferences, hattribute, -⟩ := h
  rw [Codec.required AttributePathHead.codec hhead, Codec.handles.withDefault hreferences,
    Codec.string.required hattribute]
  rfl

theorem EntityAttributeMapping.codec :
    Codec EntityAttributeMapping.toJson EntityAttributeMapping.ofJson? := by
  refine .record fun a => ⟨_, rfl, by simp, ?_, fun room h => ?_⟩
  · simp [Plain.string, Codec.plain AttributePath.codec]
  simp only [List.forall_mem_cons] at h
  obtain ⟨hname, htype, hpath, -⟩ := h
  rw [Codec.string.required hname, Codec.string.required htype,
    Codec.required AttributePath.codec hpath]
  rfl

theorem EntityMapping.codec : Codec EntityMapping.toJson EntityMapping.ofJson? := by
  refine .record fun e => ⟨_, rfl, by simp, ?_, fun room h => ?_⟩
  · simp [Plain.string, Codec.link.plain, (Codec.list AliasDeclaration.codec).plain,
      (Codec.list EntityAttributeMapping.codec).plain]
  simp only [List.forall_mem_cons] at h
  obtain ⟨hcontext, haggregate, hentity, haliases, hattributes, -⟩ := h
  rw [Codec.string.required hcontext, Codec.string.required haggregate,
    Codec.link.optional hentity, (Codec.list AliasDeclaration.codec).withDefault haliases,
    (Codec.list EntityAttributeMapping.codec).withDefault hattributes]
  rfl

theorem EntityMapping.option_codec :
    Codec (ofOption EntityMapping.toJson) fun room => Json.nullable (EntityMapping.ofJson? room) :=
  Codec.option EntityMapping.codec fun _ => object_ne_null _

theorem EntityUses.codec : Codec EntityUses.toJson EntityUses.ofJson? := by
  refine .record fun u => ⟨_, rfl, by simp, ?_, fun room h => ?_⟩
  · simp [Plain.string, Codec.link.plain, Codec.optionalString.plain]
  simp only [List.forall_mem_cons] at h
  obtain ⟨hcontext, haggregate, hvalueObject, hantiCorruption, hbinder, -⟩ := h
  rw [Codec.link.optional hcontext, Codec.link.optional haggregate,
    Codec.link.optional hvalueObject, Codec.optionalString.optional hantiCorruption,
    Codec.string.required hbinder]
  rfl

theorem EntityUses.option_codec :
    Codec (ofOption EntityUses.toJson) fun room => Json.nullable (EntityUses.ofJson? room) :=
  Codec.option EntityUses.codec fun _ => object_ne_null _

/-! ### Domain objects -/

theorem ObjectKind.plain_members (kind : ObjectKind) : ∀ m ∈ kind.members, Plain m.2 := by
  cases kind with
  | entity data =>
    simp [members, Plain.string, Codec.plain EntityMapping.option_codec,
      Codec.plain EntityUses.option_codec]
  | valueObject | domainEvent => simp [members, Plain.string]
  | enum lifecycle => simp [members, Plain.string, Plain.bool]

theorem ObjectKind.ofMembers?_members (kind : ObjectKind) {room : Nat} {ms : Members}
    (h : ∀ m ∈ kind.members, ms.Has room m.1 m.2) : ofMembers? tags room ms = some kind := by
  cases kind with
  | entity data =>
    simp only [members, List.forall_mem_cons] at h
    obtain ⟨htag, hmapping, huses, -⟩ := h
    simp [ofMembers?, Codec.tag htag, Codec.optional EntityMapping.option_codec hmapping,
      Codec.optional EntityUses.option_codec huses]
  | valueObject | domainEvent =>
    simp only [members, List.forall_mem_cons] at h
    obtain ⟨htag, -⟩ := h
    simp [ofMembers?, Codec.tag htag]
  | enum lifecycle =>
    simp only [members, List.forall_mem_cons] at h
    obtain ⟨htag, hlifecycle, -⟩ := h
    simp [ofMembers?, Codec.tag htag, Codec.bool.withDefault hlifecycle]

theorem DomainObject.codec : Codec DomainObject.toJson DomainObject.ofJson? := by
  refine .keyed sharedFields fun o => ⟨_, rfl, ?keys, ?plain, fun room h => ?read⟩
  case keys => cases o.kind <;> simp [ObjectKind.members]
  case plain =>
    simp only [List.forall_mem_append]
    refine ⟨⟨?_, o.kind.plain_members⟩, ?_⟩
    · simp [Plain.string, Codec.handle.plain]
    · simp [Plain.bool, Codec.handles.plain, Codec.plain Constructor.option_codec,
        Codec.plain Repository.option_codec, (Codec.list Operation.codec).plain]
  case read =>
    rw [List.forall_mem_append, List.forall_mem_append] at h
    obtain ⟨⟨hbefore, hkind⟩, hafter⟩ := h
    simp only [List.forall_mem_cons] at hbefore hafter
    obtain ⟨hname, haggregate, -⟩ := hbefore
    obtain ⟨hroot, hattributes, hreferences, hconstructor, hrepository, hoperations, -⟩ := hafter
    rw [Codec.string.required hname, Codec.handle.required haggregate,
      o.kind.ofMembers?_members hkind, Codec.bool.withDefault hroot,
      Codec.handles.withDefault hattributes, Codec.handles.withDefault hreferences,
      Codec.optional Constructor.option_codec hconstructor,
      Codec.optional Repository.option_codec hrepository,
      (Codec.list Operation.codec).withDefault hoperations]
    rfl

/-! ### Attributes and references -/

theorem AttributeUses.codec : Codec AttributeUses.toJson AttributeUses.ofJson? := by
  refine .record fun u => ⟨_, rfl, by simp, by simp [Plain.string], fun room h => ?_⟩
  simp only [List.forall_mem_cons] at h
  obtain ⟨hbinder, hattribute, -⟩ := h
  rw [Codec.string.required hbinder, Codec.string.required hattribute]
  rfl

theorem AttributeUses.option_codec :
    Codec (ofOption AttributeUses.toJson) fun room => Json.nullable (AttributeUses.ofJson? room) :=
  Codec.option AttributeUses.codec fun _ => object_ne_null _

theorem Attribute.codec : Codec Attribute.toJson Attribute.ofJson? := by
  refine .record fun a => ⟨_, rfl, by simp, ?_, fun room h => ?_⟩
  · simp [Plain.string, Plain.bool, Codec.handle.plain, Codec.plain AttributeUses.option_codec]
  simp only [List.forall_mem_cons] at h
  obtain ⟨hname, htype, howner, hkey, huses, -⟩ := h
  rw [Codec.string.required hname, Codec.string.required htype, Codec.handle.required howner,
    Codec.bool.withDefault hkey, Codec.optional AttributeUses.option_codec huses]
  rfl

theorem Reference.codec : Codec Reference.toJson Reference.ofJson? := by
  refine .record fun r => ⟨_, rfl, by simp, ?_, fun room h => ?_⟩
  · simp [Plain.string, Codec.handle.plain, Codec.link.plain, (Codec.word false).plain]
  simp only [List.forall_mem_cons] at h
  obtain ⟨hname, howner, htarget, hcollection, -⟩ := h
  rw [Codec.string.required hname, Codec.handle.required howner, Codec.link.optional htarget,
    (Codec.word false).withDefault hcollection]
  rfl

/-! ### Anti-corruption declarations -/

theorem AttributeTranslation.codec :
    Codec AttributeTranslation.toJson AttributeTranslation.ofJson? := by
  refine .record fun t => ⟨_, rfl, by simp, ?_, fun room h => ?_⟩
  · simp [Plain.string, Codec.link.plain, Codec.optionalString.plain]
  simp only [List.forall_mem_cons] at h
  obtain ⟨hname, htype, hentity, hattribute, halias, -⟩ := h
  rw [Codec.string.required hname, Codec.string.required htype, Codec.link.optional hentity,
    Codec.link.optional hattribute, Codec.optionalString.optional halias]
  rfl

theorem AntiCorruption.codec : Codec AntiCorruption.toJson AntiCorruption.ofJson? := by
  refine .record fun a => ⟨_, rfl, by simp, ?_, fun room h => ?_⟩
  · simp [Plain.string, (Codec.word false).plain, Codec.handle.plain, Codec.link.plain,
      (Codec.list AttributeTranslation.codec).plain, (Codec.list Invariant.codec).plain]
  simp only [List.forall_mem_cons] at h
  obtain ⟨hname, hkind, howner, hcontext, haggregate, hattributes, hinvariants, -⟩ := h
  rw [Codec.string.required hname, (Codec.word false).required hkind,
    Codec.handle.required howner, Codec.link.optional hcontext, Codec.link.optional haggregate,
    (Codec.list AttributeTranslation.codec).withDefault hattributes,
    (Codec.list Invariant.codec).withDefault hinvariants]
  rfl

/-! ### Models -/

/-- **A written model is read back.** -/
theorem Model.codec : Codec Model.toJson Model.ofJson? := by
  refine .record fun m => ⟨_, rfl, by simp, ?_, fun room h => ?_⟩
  · simp [(Codec.list BoundedContext.codec).plain, (Codec.list Module.codec).plain,
      (Codec.list Aggregate.codec).plain, (Codec.list DomainObject.codec).plain,
      (Codec.list Attribute.codec).plain, (Codec.list Reference.codec).plain,
      (Codec.list AntiCorruption.codec).plain, (Codec.list ContextMap.codec).plain,
      (Codec.list Relationship.codec).plain]
  simp only [List.forall_mem_cons] at h
  obtain ⟨hcontexts, hmodules, haggregates, hobjects, hattributes, hreferences, hantiCorruptions,
    hcontextMaps, hrelationships, -⟩ := h
  rw [(Codec.list BoundedContext.codec).withDefault hcontexts,
    (Codec.list Module.codec).withDefault hmodules,
    (Codec.list Aggregate.codec).withDefault haggregates,
    (Codec.list DomainObject.codec).withDefault hobjects,
    (Codec.list Attribute.codec).withDefault hattributes,
    (Codec.list Reference.codec).withDefault hreferences,
    (Codec.list AntiCorruption.codec).withDefault hantiCorruptions,
    (Codec.list ContextMap.codec).withDefault hcontextMaps,
    (Codec.list Relationship.codec).withDefault hrelationships]
  rfl

end DomainModel
