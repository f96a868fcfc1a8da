import Mathlib.Data.Option.Basic
import DomainModel.Proofs.Format.Edits
import DomainModel.Proofs.Format.Levels

/-! # The readers of models respect edits

Each reader of the format respects the shape that it reads: it asks for fields of its kind of record
only, and reads each of them with a reader that respects what stands under it. Which fields those
are depends on the tag alone, and an edit leaves the tag. -/

namespace DomainModel

open Json (Members)
open Option (bind_congr')

/-! ### Operators and heads -/

theorem BinaryOp.respects (formName : String) (room : Nat) :
    Respects .plain (BinaryOp.ofJson? formName room) := by
  unfold BinaryOp.ofJson?
  split
  case h_5 => exact fun _ _ _ _ => rfl
  all_goals exact (Respects.word true room).map _

namespace PathHead

theorem query_respects : ∀ room, Respects (.record .query) (queryOfJson? room) :=
  .record (fun _ => rfl) fun {room _ _} h =>
    bind_congr' (h.required (by decide) .string) fun _ _ =>
    bind_congr' (h.withDefault (by decide) (.strings room)) fun _ _ => rfl

theorem respects (room : Nat) : Respects .pathHead (ofJson? room) := by
  refine .choice (fun _ => Shape.noConfusion) fun {_ name w w'} hedit => ?_
  by_cases hquery : name = "query"
  · subst hquery
    exact query_respects (room - 1) hedit
  · rw [Shape.member, if_neg hquery] at hedit
    have hheld := hedit.carriesNothing_eq true
    have hname := Respects.string hedit
    grind

end PathHead

theorem Form.chain_respects : ∀ room, Respects (.record .chain) (chainOfJson? room) :=
  .record (fun _ => rfl) fun {room _ _} h => h.required (by decide) (.strings room)

/-! ### Expressions -/

/-- Forms that have operators have operands on both sides; other names have no operators. -/
theorem BinaryOp.fields_or_none (formName : String) :
    RecordKind.expr.fields (some formName) =
        [("id", .plain), ("expr", .plain), ("left", .record .expr), ("op", .plain),
          ("right", .record .expr)] ∨
      ∀ room v, BinaryOp.ofJson? formName room v = none := by
  unfold BinaryOp.ofJson?
  split
  case h_5 => exact Or.inr fun _ _ => rfl
  all_goals exact Or.inl rfl

variable {room : Nat} {ms ms' : Members}

theorem Form.ofMembers?_alike {readExpr : Json → Option Expr}
    {readMethods : Json → Option (List Method)} (hexpr : Respects (.record .expr) readExpr)
    (hmethods : Respects (.list (.record .method)) readMethods)
    (h : RecordAlike .expr ms ms') :
    ofMembers? readExpr readMethods room ms' = ofMembers? readExpr readMethods room ms := by
  refine h.bind_tag fun name h => ?_
  split
  case h_1 => exact bind_congr' (h.required (by decide) hexpr) fun _ _ => rfl
  case h_2 =>
    exact bind_congr' (h.required (by decide) (.word true room)) fun _ _ =>
      bind_congr' (h.required (by decide) hexpr) fun _ _ => rfl
  case h_3 =>
    exact bind_congr' (h.required (by decide) hexpr) fun _ _ =>
      bind_congr' (h.required (by decide) hexpr) fun _ _ =>
      bind_congr' (h.required (by decide) hexpr) fun _ _ => rfl
  case h_4 =>
    exact bind_congr' (h.required (by decide) (.list chain_respects room)) fun _ _ => rfl
  case h_5 =>
    exact bind_congr' (h.required (by decide) (PathHead.respects room)) fun _ _ =>
      bind_congr' (h.withDefault (by decide) (.strings room)) fun _ _ =>
      bind_congr' (h.withDefault (by decide) hmethods) fun _ _ => rfl
  case h_6 => exact bind_congr' (h.required (by decide) hexpr) fun _ _ => rfl
  case h_7 | h_8 => exact bind_congr' (h.required (by decide) .string) fun _ _ => rfl
  case h_9 => exact bind_congr' (h.required (by decide) .bool) fun _ _ => rfl
  case h_10 | h_11 => rfl
  case h_12 =>
    -- Any other name is read as an operator's form; without operators nothing is read at all.
    rcases BinaryOp.fields_or_none name with hfields | hnone
    · rw [hfields] at h
      exact bind_congr' (h.required (by decide) hexpr) fun _ _ =>
        bind_congr' (h.required (by decide) (BinaryOp.respects name room)) fun _ _ =>
        bind_congr' (h.optional (by decide) hexpr) fun _ _ => rfl
    · have hop : ∀ ms : Members, ms.required "op" (BinaryOp.ofJson? name room) = none := by
        intro ms
        unfold Members.required
        cases ms.field "op" with
        | once v => exact hnone room v
        | absent | repeated => rfl
      simp [hop]

theorem Method.ofMembers?_alike {readExpr : Json → Option Expr}
    (hexpr : Respects (.record .expr) readExpr) (h : RecordAlike .method ms ms') :
    ofMembers? readExpr room ms' = ofMembers? readExpr room ms := by
  refine h.bind_tag fun tag h => ?_
  split
  case h_1 => exact bind_congr' (h.required (by decide) (.word true room)) fun _ _ => rfl
  case h_2 =>
    exact bind_congr' (h.required (by decide) (.word true room)) fun _ _ =>
      bind_congr' (h.required (by decide) .string) fun _ _ =>
      bind_congr' (h.required (by decide) hexpr) fun _ _ => rfl
  case h_3 => rfl

/-- The fields of a method call stand in an array as they are listed. -/
theorem Method.fields_of_layout? {tag : String} {layout : Json.Layout}
    (h : layout? tag = some layout) :
    layout.fields = (RecordKind.method.fields (some tag)).map (·.1) := by
  unfold layout? at h
  split at h <;> cases h <;> rfl

/-- Expressions stand in method calls and these in expressions, so both are followed together. -/
theorem Expr.respects (room : Nat) : Respects (.record .expr) (Expr.ofJson? room) := by
  have hall : Respects (.record .expr) (Expr.ofJson? room) ∧
      Respects (.list (.record .method)) (Expr.methodsOfJson? room) ∧
      Respects (.record .method) (Method.ofJson? room) := by
    induction room with
    | zero =>
      refine ⟨fun _ v v' _ => ?_, fun _ v v' _ => ?_, fun _ v v' _ => ?_⟩
      · simp only [ofJson?]
      · simp only [methodsOfJson?]
      · simp only [Method.ofJson?]
    | succ room ih =>
      obtain ⟨hexpr, hmethods, hmethod⟩ := ih
      refine ⟨?_, ?_, ?_⟩
      · rw [ofJson?_eq]
        exact .keyed_succ rfl fun h =>
          bind_congr' (h.own.withDefault (by decide) .handle) fun _ _ =>
          bind_congr' (Form.ofMembers?_alike hexpr hmethods h) fun _ _ => rfl
      · rw [methodsOfJson?_eq]
        exact .list_succ (fun _ _ => rfl) hmethod
      · rw [Method.ofJson?_eq]
        exact .tagged_succ rfl (fun _ _ => Method.fields_of_layout?) (Method.ofMembers?_alike hexpr)
  exact hall.1

/-! ### Strategic design -/

theorem BoundedContext.respects : ∀ room, Respects (.record .context) (ofJson? room) :=
  .record (fun _ => rfl) fun {room _ _} h =>
    bind_congr' (h.required (by decide) .string) fun _ _ =>
    bind_congr' (h.withDefault (by decide) (.word false room)) fun _ _ =>
    bind_congr' (h.withDefault (by decide) (.handles room)) fun _ _ =>
    bind_congr' (h.withDefault (by decide) (.handles room)) fun _ _ =>
    bind_congr' (h.withDefault (by decide) (.handles room)) fun _ _ =>
    bind_congr' (h.withDefault (by decide) (.handles room)) fun _ _ =>
    bind_congr' (h.optional (by decide) .handle) fun _ _ => rfl

theorem Module.respects : ∀ room, Respects (.record .module) (ofJson? room) :=
  .record (fun _ => rfl) fun {room _ _} h =>
    bind_congr' (h.required (by decide) .string) fun _ _ =>
    bind_congr' (h.withDefault (by decide) (.handles room)) fun _ _ => rfl

theorem ContextMap.respects : ∀ room, Respects (.record .contextMap) (ofJson? room) :=
  .record (fun _ => rfl) fun {room _ _} h =>
    bind_congr' (h.required (by decide) .string) fun _ _ =>
    bind_congr' (h.optional (by decide) (.word false room)) fun _ _ =>
    bind_congr' (h.withDefault (by decide) (.handles room)) fun _ _ =>
    bind_congr' (h.withDefault (by decide) (.handles room)) fun _ _ => rfl

theorem Relationship.supplyOfMembers?_alike
    (h : FieldsAlike (RecordKind.relationship.fields (some "upstream_downstream")) ms ms') :
    supplyOfMembers? room ms' = supplyOfMembers? room ms :=
  bind_congr' (h.withDefault (by decide) .bool) fun _ _ =>
    bind_congr' (h.optional (by decide) .handle) fun _ _ =>
    bind_congr' (h.optional (by decide) .handle) fun _ _ =>
    bind_congr' (h.withDefault (by decide) (.words true room)) fun _ _ =>
    bind_congr' (h.withDefault (by decide) (.words true room)) fun _ _ =>
    bind_congr' (h.withDefault (by decide) (.handles room)) fun _ _ => rfl

theorem Relationship.fields_of_layout? {tag : String} {layout : Json.Layout}
    (h : layout? tag = some layout) :
    layout.fields = (RecordKind.relationship.fields (some tag)).map (·.1) := by
  unfold layout? at h
  split at h <;> cases h <;> rfl

theorem Relationship.respects : ∀ room, Respects (.record .relationship) (ofJson? room) := by
  refine .tagged rfl (fun _ _ => fields_of_layout?) fun {room ms ms'} h =>
    h.bind_tag fun tag h => ?_
  split
  case h_1 =>
    exact bind_congr' (h.required (by decide) (.word true room)) fun _ _ =>
      bind_congr' (h.optional (by decide) .handle) fun _ _ =>
      bind_congr' (h.optional (by decide) .handle) fun _ _ => rfl
  case h_2 => exact bind_congr' (supplyOfMembers?_alike h) fun _ _ => rfl
  case h_3 => rfl

/-! ### Aggregates and invariants -/

theorem Invariant.respects : ∀ room, Respects (.record .invariant) (ofJson? room) :=
  .record (fun _ => rfl) fun {room _ _} h =>
    bind_congr' (h.required (by decide) .string) fun _ _ =>
    bind_congr' (h.required (by decide) (Expr.respects room)) fun _ _ => rfl

theorem Aggregate.respects : ∀ room, Respects (.record .aggregate) (ofJson? room) :=
  .record (fun _ => rfl) fun {room _ _} h =>
    bind_congr' (h.required (by decide) .string) fun _ _ =>
    bind_congr' (h.optional (by decide) .handle) fun _ _ =>
    bind_congr' (h.withDefault (by decide) (.handles room)) fun _ _ =>
    bind_congr' (h.withDefault (by decide) (.list Invariant.respects room)) fun _ _ => rfl

/-! ### Parameters and their types -/

theorem TypeTarget.respects (room : Nat) : Respects .plain (ofJson? room) := by
  refine .choice (fun _ => Shape.noConfusion) fun {_ name w w'} hedit => ?_
  have hname := Respects.string hedit
  have hlink : Json.nullable (Json.toHandle? : Json → Option (Handle .object)) w' =
      Json.nullable Json.toHandle? w := Respects.handle.nullable hedit
  grind

theorem ComplexType.respects : ∀ room, Respects (.record .complexType) (ofJson? room) :=
  .record (fun _ => rfl) fun {room _ _} h =>
    bind_congr' (h.withDefault (by decide) (.word false room)) fun _ _ =>
    bind_congr' (h.required (by decide) (TypeTarget.respects room)) fun _ _ => rfl

theorem Parameter.respects : ∀ room, Respects (.record .parameter) (ofJson? room) :=
  .record (fun _ => rfl) fun {room _ _} h =>
    bind_congr' (h.required (by decide) .string) fun _ _ =>
    bind_congr' (h.required (by decide) (ComplexType.respects room)) fun _ _ => rfl

/-! ### Constructors, operations and repositories -/

theorem ConstructorAssignment.respects :
    ∀ room, Respects (.record .constructorAssignment) (ofJson? room) :=
  .record (fun _ => rfl) fun {room _ _} h =>
    bind_congr' (h.required (by decide) .string) fun _ _ =>
    bind_congr' (h.required (by decide) (Expr.respects room)) fun _ _ => rfl

theorem Constructor.respects : ∀ room, Respects (.record .constructor) (ofJson? room) :=
  .record (fun _ => rfl) fun {room _ _} h =>
    bind_congr' (h.withDefault (by decide) (.list Parameter.respects room)) fun _ _ =>
    bind_congr' (h.withDefault (by decide) (.list ConstructorAssignment.respects room)) fun _ _ =>
    rfl

theorem LeftValue.respects : ∀ room, Respects (.record .leftValue) (ofJson? room) :=
  .record (fun _ => rfl) fun {room _ _} h =>
    bind_congr' (h.optional (by decide) .string) fun _ _ =>
    bind_congr' (h.withDefault (by decide) (.strings room)) fun _ _ => rfl

theorem Command.fields_of_layout? {tag : String} {layout : Json.Layout}
    (h : layout? tag = some layout) :
    layout.fields = (RecordKind.command.fields (some tag)).map (·.1) := by
  unfold layout? at h
  split at h <;> cases h <;> rfl

theorem Command.respects : ∀ room, Respects (.record .command) (ofJson? room) := by
  refine .tagged rfl (fun _ _ => fields_of_layout?) fun {room ms ms'} h =>
    h.bind_tag fun tag h => ?_
  split
  case h_1 =>
    exact bind_congr' (h.required (by decide) (LeftValue.respects room)) fun _ _ =>
      bind_congr' (h.required (by decide) (Expr.respects room)) fun _ _ => rfl
  case h_2 => exact bind_congr' (h.required (by decide) .string) fun _ _ => rfl
  case h_3 => rfl

theorem Operation.respects : ∀ room, Respects (.record .operation) (ofJson? room) :=
  .record (fun _ => rfl) fun {room _ _} h =>
    bind_congr' (h.required (by decide) .string) fun _ _ =>
    bind_congr' (h.withDefault (by decide) (.list Parameter.respects room)) fun _ _ =>
    bind_congr' (h.optional (by decide) (ComplexType.respects room)) fun _ _ =>
    bind_congr' (h.withDefault (by decide) (.list Command.respects room)) fun _ _ => rfl

theorem RepositoryOperation.respects :
    ∀ room, Respects (.record .repositoryOperation) (ofJson? room) :=
  .record (fun _ => rfl) fun {room _ _} h =>
    bind_congr' (h.required (by decide) .string) fun _ _ =>
    bind_congr' (h.withDefault (by decide) (.list Parameter.respects room)) fun _ _ =>
    bind_congr' (h.optional (by decide) (ComplexType.respects room)) fun _ _ => rfl

theorem Repository.respects : ∀ room, Respects (.record .repository) (ofJson? room) :=
  .record (fun _ => rfl) fun {room _ _} h =>
    bind_congr' (h.required (by decide) .string) fun _ _ =>
    bind_congr' (h.withDefault (by decide) (.list RepositoryOperation.respects room)) fun _ _ => rfl

/-! ### Entity mappings and uses bindings -/

theorem AliasDeclaration.respects : ∀ room, Respects (.record .aliasDeclaration) (ofJson? room) :=
  .record (fun _ => rfl) fun {room _ _} h =>
    bind_congr' (h.required (by decide) .string) fun _ _ =>
    bind_congr' (h.withDefault (by decide) (.handles room)) fun _ _ => rfl

theorem AttributePathHead.respects (room : Nat) : Respects .plain (ofJson? room) := by
  refine .choice (fun _ => Shape.noConfusion) fun {_ name w w'} hedit => ?_
  have hheld := hedit.carriesNothing_eq true
  have hname := Respects.string hedit
  grind

theorem AttributePath.respects : ∀ room, Respects (.record .attributePath) (ofJson? room) :=
  .record (fun _ => rfl) fun {room _ _} h =>
    bind_congr' (h.required (by decide) (AttributePathHead.respects room)) fun _ _ =>
    bind_congr' (h.withDefault (by decide) (.handles room)) fun _ _ =>
    bind_congr' (h.required (by decide) .string) fun _ _ => rfl

theorem EntityAttributeMapping.respects :
    ∀ room, Respects (.record .attributeMapping) (ofJson? room) :=
  .record (fun _ => rfl) fun {room _ _} h =>
    bind_congr' (h.required (by decide) .string) fun _ _ =>
    bind_congr' (h.required (by decide) .string) fun _ _ =>
    bind_congr' (h.required (by decide) (AttributePath.respects room)) fun _ _ => rfl

theorem EntityMapping.respects : ∀ room, Respects (.record .entityMapping) (ofJson? room) :=
  .record (fun _ => rfl) fun {room _ _} h =>
    bind_congr' (h.required (by decide) .string) fun _ _ =>
    bind_congr' (h.required (by decide) .string) fun _ _ =>
    bind_congr' (h.optional (by decide) .handle) fun _ _ =>
    bind_congr' (h.withDefault (by decide) (.list AliasDeclaration.respects room)) fun _ _ =>
    bind_congr' (h.withDefault (by decide) (.list EntityAttributeMapping.respects room)) fun _ _ =>
    rfl

theorem EntityUses.respects : ∀ room, Respects (.record .entityUses) (ofJson? room) :=
  .record (fun _ => rfl) fun h =>
    bind_congr' (h.optional (by decide) .handle) fun _ _ =>
    bind_congr' (h.optional (by decide) .handle) fun _ _ =>
    bind_congr' (h.optional (by decide) .handle) fun _ _ =>
    bind_congr' (h.optional (by decide) .string) fun _ _ =>
    bind_congr' (h.required (by decide) .string) fun _ _ => rfl

/-! ### Domain objects -/

theorem ObjectKind.ofMembers?_alike (h : RecordAlike .object ms ms') :
    ofMembers? tags room ms' = ofMembers? tags room ms := by
  refine h.bind_tag fun tag h => ?_
  split
  case h_1 =>
    exact bind_congr' (h.optional (by decide) (EntityMapping.respects room)) fun _ _ =>
      bind_congr' (h.optional (by decide) (EntityUses.respects room)) fun _ _ => rfl
  case h_4 => exact bind_congr' (h.withDefault (by decide) .bool) fun _ _ => rfl
  all_goals rfl

theorem DomainObject.respects : ∀ room, Respects (.record .object) (ofJson? room) :=
  .keyed rfl fun {room _ _} h =>
    bind_congr' (h.own.required (by decide) .string) fun _ _ =>
    bind_congr' (h.own.required (by decide) .handle) fun _ _ =>
    bind_congr' (ObjectKind.ofMembers?_alike h) fun _ _ =>
    bind_congr' (h.own.withDefault (by decide) .bool) fun _ _ =>
    bind_congr' (h.own.withDefault (by decide) (.handles room)) fun _ _ =>
    bind_congr' (h.own.withDefault (by decide) (.handles room)) fun _ _ =>
    bind_congr' (h.own.optional (by decide) (Constructor.respects room)) fun _ _ =>
    bind_congr' (h.own.optional (by decide) (Repository.respects room)) fun _ _ =>
    bind_congr' (h.own.withDefault (by decide) (.list Operation.respects room)) fun _ _ => rfl

/-! ### Attributes and references -/

theorem AttributeUses.respects : ∀ room, Respects (.record .attributeUses) (ofJson? room) :=
  .record (fun _ => rfl) fun h =>
    bind_congr' (h.required (by decide) .string) fun _ _ =>
    bind_congr' (h.required (by decide) .string) fun _ _ => rfl

theorem Attribute.respects : ∀ room, Respects (.record .attribute) (ofJson? room) :=
  .record (fun _ => rfl) fun {room _ _} h =>
    bind_congr' (h.required (by decide) .string) fun _ _ =>
    bind_congr' (h.required (by decide) .string) fun _ _ =>
    bind_congr' (h.required (by decide) .handle) fun _ _ =>
    bind_congr' (h.withDefault (by decide) .bool) fun _ _ =>
    bind_congr' (h.optional (by decide) (AttributeUses.respects room)) fun _ _ => rfl

theorem Reference.respects : ∀ room, Respects (.record .reference) (ofJson? room) :=
  .record (fun _ => rfl) fun {room _ _} h =>
    bind_congr' (h.required (by decide) .string) fun _ _ =>
    bind_congr' (h.required (by decide) .handle) fun _ _ =>
    bind_congr' (h.optional (by decide) .handle) fun _ _ =>
    bind_congr' (h.withDefault (by decide) (.word false room)) fun _ _ => rfl

/-! ### Anti-corruption declarations -/

theorem AttributeTranslation.respects :
    ∀ room, Respects (.record .attributeTranslation) (ofJson? room) :=
  .record (fun _ => rfl) fun h =>
    bind_congr' (h.required (by decide) .string) fun _ _ =>
    bind_congr' (h.required (by decide) .string) fun _ _ =>
    bind_congr' (h.optional (by decide) .handle) fun _ _ =>
    bind_congr' (h.optional (by decide) .handle) fun _ _ =>
    bind_congr' (h.optional (by decide) .string) fun _ _ => rfl

theorem AntiCorruption.respects : ∀ room, Respects (.record .antiCorruption) (ofJson? room) :=
  .record (fun _ => rfl) fun {room _ _} h =>
    bind_congr' (h.required (by decide) .string) fun _ _ =>
    bind_congr' (h.required (by decide) (.word false room)) fun _ _ =>
    bind_congr' (h.required (by decide) .handle) fun _ _ =>
    bind_congr' (h.optional (by decide) .handle) fun _ _ =>
    bind_congr' (h.optional (by decide) .handle) fun _ _ =>
    bind_congr' (h.withDefault (by decide) (.list AttributeTranslation.respects room)) fun _ _ =>
    bind_congr' (h.withDefault (by decide) (.list Invariant.respects room)) fun _ _ => rfl

/-! ### Models -/

theorem Model.respects : ∀ room, Respects (.record .model) (ofJson? room) :=
  .record (fun _ => rfl) fun {room _ _} h =>
    bind_congr' (h.withDefault (by decide) (.list BoundedContext.respects room)) fun _ _ =>
    bind_congr' (h.withDefault (by decide) (.list Module.respects room)) fun _ _ =>
    bind_congr' (h.withDefault (by decide) (.list Aggregate.respects room)) fun _ _ =>
    bind_congr' (h.withDefault (by decide) (.list DomainObject.respects room)) fun _ _ =>
    bind_congr' (h.withDefault (by decide) (.list Attribute.respects room)) fun _ _ =>
    bind_congr' (h.withDefault (by decide) (.list Reference.respects room)) fun _ _ =>
    bind_congr' (h.withDefault (by decide) (.list AntiCorruption.respects room)) fun _ _ =>
    bind_congr' (h.withDefault (by decide) (.list ContextMap.respects room)) fun _ _ =>
    bind_congr' (h.withDefault (by decide) (.list Relationship.respects room)) fun _ _ => rfl

end DomainModel
