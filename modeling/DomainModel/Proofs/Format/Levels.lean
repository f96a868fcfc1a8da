import DomainModel.Proofs.Format.Model
import DomainModel.Proofs.Json.Levels

/-! # Levels of models

Every reader of the format is tight: what it reads is written with one more level at most. The extra
level comes from the lists that a text may leave out and that are written all the same, the chains
of properties and methods of a path above all, since only expressions nest without bound. -/

namespace DomainModel

open Json (Members Tight ofHandle ofList ofOption ofWord)

/-! ### Operators and heads -/

theorem BinaryOp.tight (formName : String) (room : Nat) :
    Tight room BinaryOp.toJson (BinaryOp.ofJson? formName room) := by
  refine .scalar fun op => ?_
  cases op <;> rfl

namespace PathHead

theorem depth_query (operation : String) (params : List String) :
    (query operation params).toJson.depth = 3 := by
  have hparams : Json.depthItems (params.map Json.string) = 0 := by
    refine Nat.le_zero.mp (Json.depthItems_le.mpr (List.forall_mem_map.mpr fun _ _ => ?_))
    exact Nat.le_refl 0
  simp [toJson, ofList, Json.depth, Json.depthMembers, hparams]

/-- The arguments of a query stand in a record. -/
theorem query_of_queryOfJson? {room : Nat} {v : Json} {head : PathHead}
    (h : queryOfJson? room v = some head) :
    (∃ operation params, head = query operation params) ∧ 1 ≤ room ∧ 1 ≤ v.depth := by
  unfold queryOfJson? Json.record at h
  obtain ⟨r, ms, rfl, h, hlevel⟩ := Json.recordBy_eq_some h
  simp only [Option.bind_eq_bind, Option.bind_eq_some_iff, Option.pure_def, Option.some.injEq] at h
  obtain ⟨operation, -, params, -, rfl⟩ := h
  exact ⟨⟨operation, params, rfl⟩, by omega, by omega⟩

/-- A written query is only read if there is room for the list of its arguments. -/
theorem room_of_queryOfJson? {room : Nat} {operation : String} {params : List String}
    {head : PathHead} (h : queryOfJson? room
      (.object [("operation", .string operation), ("params", ofList .string params)]) =
        some head) : 2 ≤ room := by
  have hfield : Members.field
      ⟨[("operation", .string operation), ("params", ofList .string params)]⟩ "params" =
        .once (ofList .string params) := by
    simp [Members.field]
  rcases room with _ | _ | room
  · cases h
  · unfold queryOfJson? Json.record Json.recordBy at h
    obtain ⟨_, -, h⟩ := Option.bind_eq_some_iff.mp h
    obtain ⟨_, hparams, -⟩ := Option.bind_eq_some_iff.mp h
    unfold Members.withDefault at hparams
    rw [hfield] at hparams
    cases hparams
  · omega

theorem tight (room : Nat) : Tight room PathHead.toJson (PathHead.ofJson? room) where
  depth_write {v head} h := by
    obtain ⟨⟨name, held⟩, hchoice, h⟩ := Option.bind_eq_some_iff.mp h
    split at h
    · split at h
      · cases h
        exact Nat.zero_le _
      · cases h
    · next name w heq =>
      cases heq
      obtain ⟨n, -, rfl⟩ := Option.map_eq_some_iff.mp h
      exact Nat.succ_le_succ (Nat.zero_le _)
    · next name w heq =>
      cases heq
      have hlevels := Json.levels_of_choice hchoice
      obtain ⟨⟨operation, params, rfl⟩, hrecord⟩ := query_of_queryOfJson? h
      rw [depth_query]
      omega
    · cases h
  depth_le {a b} h := by
    obtain ⟨⟨name, held⟩, hchoice, h⟩ := Option.bind_eq_some_iff.mp h
    cases a with
    | root => exact Nat.zero_le _
    | «variable» name =>
      cases room with
      | zero => cases hchoice
      | succ room => exact Nat.succ_le_succ (Nat.zero_le room)
    | query operation params =>
      cases room with
      | zero => cases hchoice
      | succ room =>
        cases hchoice
        have hroom := room_of_queryOfJson? h
        rw [depth_query]
        omega

end PathHead

theorem Form.chain_tight : ∀ room, Tight room
    (fun chain => .object [("properties", ofList .string chain)]) (Form.chainOfJson? room) := by
  refine .record (fun _ => rfl) (by simp) fun room ms chain chain' h => ?_
  simp [(Tight.strings room).required h]

/-! ### Expressions -/

/-- The members of a call in a method chain, the tag first. -/
def Method.members : Method → List (String × Json)
  | .simple method => [("kind", .string "simple"), ("method", ofWord method)]
  | .parametric method binder body =>
    [("kind", .string "parametric"), ("method", ofWord method), ("variable", .string binder),
      ("body", body.toJson)]

theorem Expr.methodsToJson_eq (methods : List Method) :
    Expr.methodsToJson methods = methods.map fun method => .object method.members := by
  induction methods with
  | nil => rfl
  | cons method methods ih => cases method <;> rw [Expr.methodsToJson, ih] <;> rfl

theorem Expr.methodsOfJson?_eq (room : Nat) :
    Expr.methodsOfJson? room = Json.list Method.ofJson? room := by
  funext v
  unfold Expr.methodsOfJson? Json.list
  rfl

theorem Expr.ofJson?_eq (room : Nat) : Expr.ofJson? (room + 1) = Json.keyed (fun room ms =>
    if ms.othersFit ["id"] room then do
      return ⟨← ms.withDefault "id" ⟨0⟩ Json.toHandle?,
        ← Form.ofMembers? (Expr.ofJson? room) (Expr.methodsOfJson? room) room ms⟩
    else none) (room + 1) := by
  funext v
  unfold Expr.ofJson?
  cases v <;> rfl

theorem Method.ofJson?_eq (room : Nat) : Method.ofJson? (room + 1) =
    Json.tagged Method.tags Method.layout?
      (fun room => Method.ofMembers? (Expr.ofJson? room) room) (room + 1) := by
  funext v
  unfold Method.ofJson?
  cases v <;> rfl

/-- What a form is written with nests no deeper than its parts allow. -/
theorem Form.depth_members {readExpr : Json → Option Expr}
    {readMethods : Json → Option (List Method)} {room : Nat} {ms : Members} {form : Form}
    (hexpr : Tight room Expr.toJson readExpr)
    (hmethods : Tight room (ofList fun method => .object method.members) readMethods)
    (h : Form.ofMembers? readExpr readMethods room ms = some form) :
    ∀ m ∈ form.members, m.2.depth ≤ ms.level room := by
  obtain ⟨tag, -, h⟩ := Option.bind_eq_some_iff.mp h
  have htag : ∀ name, (Json.string name).depth ≤ ms.level room := fun _ => Nat.zero_le _
  split at h
  all_goals
    simp only [Option.bind_eq_bind, Option.bind_eq_some_iff, Option.pure_def,
      Option.some.injEq] at h
  case h_1 =>
    obtain ⟨operand, hoperand, rfl⟩ := h
    simp [members, htag, (hexpr.required hoperand operand).depth_write]
  case h_2 =>
    obtain ⟨op, hop, operand, hoperand, rfl⟩ := h
    simp [members, htag, (Tight.word.required hop op).depth_write,
      (hexpr.required hoperand operand).depth_write]
  case h_3 =>
    obtain ⟨condition, hcondition, thenValue, hthen, elseValue, helse, rfl⟩ := h
    simp [members, htag, (hexpr.required hcondition condition).depth_write,
      (hexpr.required hthen thenValue).depth_write, (hexpr.required helse elseValue).depth_write]
  case h_4 =>
    obtain ⟨chains, hchains, rfl⟩ := h
    simp [members, htag, ((Tight.list chain_tight room).required hchains chains).depth_write]
  case h_5 =>
    obtain ⟨head, hhead, properties, hproperties, methods, hmethodList, rfl⟩ := h
    have hnil : (ofList (fun method => .object (Method.members method)) []).depth ≤ 1 :=
      Nat.le_refl 1
    have hlist := (hmethods.withDefault hnil hmethodList methods).depth_write
    rw [ofList, ← Expr.methodsToJson_eq] at hlist
    simp [members, htag, ((PathHead.tight room).required hhead head).depth_write,
      (Tight.stringsOrEmpty hproperties properties).depth_write, hlist]
  case h_6 =>
    obtain ⟨inner, hinner, rfl⟩ := h
    simp [members, htag, (hexpr.required hinner inner).depth_write]
  case h_7 | h_8 =>
    obtain ⟨value, -, rfl⟩ := h
    simp [members, htag]
  case h_9 =>
    obtain ⟨value, hvalue, rfl⟩ := h
    simp [members, htag, (Tight.bool.required hvalue value).depth_write]
  case h_10 | h_11 =>
    cases h
    simp [members, htag]
  case h_12 =>
    obtain ⟨left, hleft, op, hop, right, hright, h⟩ := h
    have hleft := (hexpr.required hleft left).depth_write
    have hop := ((BinaryOp.tight tag room).required hop op).depth_write
    have hright := (hexpr.optional hright right).depth_write
    cases right with
    | none =>
      cases h
      simp [members, hleft, hop, Json.depth]
    | some right =>
      cases h
      rw [ofOption] at hright
      simp [members, htag, hleft, hop, hright]

/-- The number of an expression has no levels, and its form has no key of that name. -/
theorem Expr.tight_succ {room : Nat} (hexpr : Tight room Expr.toJson (Expr.ofJson? room))
    (hmethods : Tight room (ofList fun method => .object (Method.members method))
      (Expr.methodsOfJson? room)) : Tight (room + 1) Expr.toJson (Expr.ofJson? (room + 1)) := by
  have hwrite : ∀ e : Expr, e.toJson = .object (("id", ofHandle e.id) :: e.form.members) := by
    rintro ⟨id, form⟩
    rw [Expr.toJson, Expr.id, Expr.form]
  rw [ofJson?_eq, Json.keyed]
  refine .of_members hwrite (fun ms e h => ?_) fun e e' h => ?_
  · split at h
    · obtain ⟨id, -, h⟩ := Option.bind_eq_some_iff.mp h
      obtain ⟨form, hform, h⟩ := Option.bind_eq_some_iff.mp h
      cases h
      exact List.forall_mem_cons.mpr ⟨Nat.zero_le _, Form.depth_members hexpr hmethods hform⟩
    · cases h
  · split at h
    · next hfit =>
      refine List.forall_mem_cons.mpr ⟨Nat.zero_le _, fun m hm => ?_⟩
      refine Json.depth_le_of_othersFit hfit (List.mem_cons_of_mem _ hm) ?_
      have hkeys := (List.nodup_cons.mp (Form.keys_members e.id e.form)).1
      rw [List.mem_singleton]
      rintro hid
      exact hkeys (List.mem_map.mpr ⟨m, hm, hid⟩)
    · cases h

theorem Method.tight_succ {room : Nat} (hexpr : Tight room Expr.toJson (Expr.ofJson? room)) :
    Tight (room + 1) (fun method => .object (Method.members method))
      (Method.ofJson? (room + 1)) := by
  rw [Method.ofJson?_eq]
  refine .tagged_succ (fun _ => rfl) fun ms method h => ?_
  obtain ⟨tag, -, h⟩ := Option.bind_eq_some_iff.mp h
  have htag : ∀ name, (Json.string name).depth ≤ ms.level room := fun _ => Nat.zero_le _
  simp only [Option.bind_eq_bind, Option.pure_def] at h
  split at h
  case h_1 =>
    simp only [Option.bind_eq_some_iff, Option.some.injEq] at h
    obtain ⟨method, hmethod, rfl⟩ := h
    simp [members, htag, (Tight.word.required hmethod method).depth_write]
  case h_2 =>
    simp only [Option.bind_eq_some_iff, Option.some.injEq] at h
    obtain ⟨method, hmethod, binder, -, body, hbody, rfl⟩ := h
    simp [members, htag, (Tight.word.required hmethod method).depth_write,
      (hexpr.required hbody body).depth_write]
  case h_3 => cases h

/-- Expressions stand in method calls and these in expressions, so both are followed together. -/
theorem Expr.tight (room : Nat) : Tight room Expr.toJson (Expr.ofJson? room) := by
  have hall : Tight room Expr.toJson (Expr.ofJson? room) ∧
      Tight room (ofList fun method => .object (Method.members method))
        (Expr.methodsOfJson? room) ∧
      Tight room (fun method => .object (Method.members method)) (Method.ofJson? room) := by
    induction room with
    | zero =>
      refine ⟨.of_eq_none fun v => ?_, .of_eq_none fun v => ?_, .of_eq_none fun v => ?_⟩
      · simp [Expr.ofJson?]
      · simp [Expr.methodsOfJson?]
      · simp [Method.ofJson?]
    | succ room ih =>
      obtain ⟨hexpr, hmethods, hmethod⟩ := ih
      refine ⟨tight_succ hexpr hmethods, ?_, Method.tight_succ hexpr⟩
      rw [methodsOfJson?_eq]
      exact hmethod.list_succ
  exact hall.1

/-! ### Strategic design -/

theorem BoundedContext.tight :
    ∀ room, Tight room BoundedContext.toJson (BoundedContext.ofJson? room) := by
  refine .record (fun _ => rfl) (by simp) fun room ms read other h => ?_
  simp only [Option.bind_eq_bind, Option.bind_eq_some_iff, Option.pure_def, Option.some.injEq] at h
  obtain ⟨_, hname, _, htype, _, haggregates, _, hmodules, _, hantiCorruptions, _, hrealizes, _,
    howner, rfl⟩ := h
  simp [Tight.string.required hname, Tight.word.withDefault (Nat.zero_le 1) htype,
    Tight.handlesOrEmpty haggregates, Tight.handlesOrEmpty hmodules,
    Tight.handlesOrEmpty hantiCorruptions, Tight.handlesOrEmpty hrealizes,
    Tight.handle.optional howner]

theorem Module.tight : ∀ room, Tight room Module.toJson (Module.ofJson? room) := by
  refine .record (fun _ => rfl) (by simp) fun room ms read other h => ?_
  simp only [Option.bind_eq_bind, Option.bind_eq_some_iff, Option.pure_def, Option.some.injEq] at h
  obtain ⟨_, hname, _, haggregates, rfl⟩ := h
  simp [Tight.string.required hname, Tight.handlesOrEmpty haggregates]

theorem ContextMap.tight : ∀ room, Tight room ContextMap.toJson (ContextMap.ofJson? room) := by
  refine .record (fun _ => rfl) (by simp) fun room ms read other h => ?_
  simp only [Option.bind_eq_bind, Option.bind_eq_some_iff, Option.pure_def, Option.some.injEq] at h
  obtain ⟨_, hname, _, htype, _, hcontexts, _, hrelationships, rfl⟩ := h
  simp [Tight.string.required hname, Tight.word.optional htype, Tight.handlesOrEmpty hcontexts,
    Tight.handlesOrEmpty hrelationships]

/-- The members of a relationship, the tag first. -/
def Relationship.members : Relationship → List (String × Json)
  | symmetric pattern a b =>
    [("kind", .string "symmetric"), ("pattern", ofWord pattern),
      ("participant1", ofOption ofHandle a), ("participant2", ofOption ofHandle b)]
  | upstreamDownstream s =>
    [("kind", .string "upstream_downstream"), ("customer_supplier", .bool s.customerSupplier),
      ("upstream", ofOption ofHandle s.upstream), ("downstream", ofOption ofHandle s.downstream),
      ("upstream_roles", ofList ofWord s.upstreamRoles),
      ("downstream_roles", ofList ofWord s.downstreamRoles),
      ("exposed_aggregates", ofList ofHandle s.exposedAggregates)]

theorem Relationship.tight :
    ∀ room, Tight room Relationship.toJson (Relationship.ofJson? room) := by
  have hwrite : ∀ r : Relationship, r.toJson = .object r.members := by
    rintro (_ | _) <;> rfl
  refine .tagged hwrite fun room ms r h => ?_
  obtain ⟨tag, -, h⟩ := Option.bind_eq_some_iff.mp h
  have htag : ∀ name, (Json.string name).depth ≤ ms.level room := fun _ => Nat.zero_le _
  simp only [Option.bind_eq_bind, Option.pure_def] at h
  split at h
  case h_1 =>
    simp only [Option.bind_eq_some_iff, Option.some.injEq] at h
    obtain ⟨pattern, hpattern, a, ha, b, hb, rfl⟩ := h
    simp [members, htag, (Tight.word.required hpattern pattern).depth_write,
      (Tight.handle.optional ha a).depth_write, (Tight.handle.optional hb b).depth_write]
  case h_2 =>
    obtain ⟨s, hs, h⟩ := Option.bind_eq_some_iff.mp h
    cases h
    unfold supplyOfMembers? at hs
    simp only [Option.bind_eq_bind, Option.bind_eq_some_iff, Option.pure_def,
      Option.some.injEq] at hs
    obtain ⟨supplier, -, upstream, hupstream, downstream, hdownstream, upstreamRoles,
      hupstreamRoles, downstreamRoles, hdownstreamRoles, exposed, hexposed, rfl⟩ := hs
    have hflag : (Json.bool supplier).depth ≤ ms.level room := Nat.zero_le _
    simp [members, htag, hflag, (Tight.handle.optional hupstream upstream).depth_write,
      (Tight.handle.optional hdownstream downstream).depth_write,
      (Tight.listOrEmpty (fun _ => .word) hupstreamRoles upstreamRoles).depth_write,
      (Tight.listOrEmpty (fun _ => .word) hdownstreamRoles downstreamRoles).depth_write,
      (Tight.handlesOrEmpty hexposed exposed).depth_write]
  case h_3 => cases h

/-! ### Aggregates and invariants -/

theorem Invariant.tight : ∀ room, Tight room Invariant.toJson (Invariant.ofJson? room) := by
  refine .record (fun _ => rfl) (by simp) fun room ms read other h => ?_
  simp only [Option.bind_eq_bind, Option.bind_eq_some_iff, Option.pure_def, Option.some.injEq] at h
  obtain ⟨_, hname, _, hexpression, rfl⟩ := h
  simp [Tight.string.required hname, (Expr.tight room).required hexpression]

theorem Aggregate.tight : ∀ room, Tight room Aggregate.toJson (Aggregate.ofJson? room) := by
  refine .record (fun _ => rfl) (by simp) fun room ms read other h => ?_
  simp only [Option.bind_eq_bind, Option.bind_eq_some_iff, Option.pure_def, Option.some.injEq] at h
  obtain ⟨_, hname, _, hcontext, _, hobjects, _, hinvariants, rfl⟩ := h
  simp [Tight.string.required hname, Tight.handle.optional hcontext, Tight.handlesOrEmpty hobjects,
    Tight.listOrEmpty Invariant.tight hinvariants]

/-! ### Parameters and their types -/

theorem TypeTarget.tight (room : Nat) :
    Tight room TypeTarget.toJson (TypeTarget.ofJson? room) := by
  have hdepth : ∀ t : TypeTarget, t.toJson.depth = 1 := by
    rintro (_ | _ | _) <;> rfl
  constructor
  · intro v t h
    rw [hdepth t]
    exact Nat.succ_le_succ (Nat.zero_le _)
  · intro t t' h
    rw [hdepth t]
    cases room with
    | zero => cases t <;> cases h
    | succ room => exact Nat.succ_le_succ (Nat.zero_le room)

theorem ComplexType.tight : ∀ room, Tight room ComplexType.toJson (ComplexType.ofJson? room) := by
  refine .record (fun _ => rfl) (by simp) fun room ms read other h => ?_
  simp only [Option.bind_eq_bind, Option.bind_eq_some_iff, Option.pure_def, Option.some.injEq] at h
  obtain ⟨_, hcollection, _, htarget, rfl⟩ := h
  simp [Tight.word.withDefault (Nat.zero_le 1) hcollection,
    (TypeTarget.tight room).required htarget]

theorem Parameter.tight : ∀ room, Tight room Parameter.toJson (Parameter.ofJson? room) := by
  refine .record (fun _ => rfl) (by simp) fun room ms read other h => ?_
  simp only [Option.bind_eq_bind, Option.bind_eq_some_iff, Option.pure_def, Option.some.injEq] at h
  obtain ⟨_, hname, _, htype, rfl⟩ := h
  simp [Tight.string.required hname, (ComplexType.tight room).required htype]

/-! ### Constructors, operations and repositories -/

theorem ConstructorAssignment.tight :
    ∀ room, Tight room ConstructorAssignment.toJson (ConstructorAssignment.ofJson? room) := by
  refine .record (fun _ => rfl) (by simp) fun room ms read other h => ?_
  simp only [Option.bind_eq_bind, Option.bind_eq_some_iff, Option.pure_def, Option.some.injEq] at h
  obtain ⟨_, hattribute, _, hexpression, rfl⟩ := h
  simp [Tight.string.required hattribute, (Expr.tight room).required hexpression]

theorem Constructor.tight : ∀ room, Tight room Constructor.toJson (Constructor.ofJson? room) := by
  refine .record (fun _ => rfl) (by simp) fun room ms read other h => ?_
  simp only [Option.bind_eq_bind, Option.bind_eq_some_iff, Option.pure_def, Option.some.injEq] at h
  obtain ⟨_, hparameters, _, hassignments, rfl⟩ := h
  simp [Tight.listOrEmpty Parameter.tight hparameters,
    Tight.listOrEmpty ConstructorAssignment.tight hassignments]

theorem LeftValue.tight : ∀ room, Tight room LeftValue.toJson (LeftValue.ofJson? room) := by
  refine .record (fun _ => rfl) (by simp) fun room ms read other h => ?_
  simp only [Option.bind_eq_bind, Option.bind_eq_some_iff, Option.pure_def, Option.some.injEq] at h
  obtain ⟨_, hhead, _, hproperties, rfl⟩ := h
  simp [Tight.string.optional hhead, Tight.stringsOrEmpty hproperties]

/-- The members of a command, the tag first. -/
def Command.members : Command → List (String × Json)
  | assignment left right =>
    [("kind", .string "assignment"), ("left", left.toJson), ("right", right.toJson)]
  | other text => [("kind", .string "other"), ("text", .string text)]

theorem Command.tight : ∀ room, Tight room Command.toJson (Command.ofJson? room) := by
  have hwrite : ∀ c : Command, c.toJson = .object c.members := by
    rintro (_ | _) <;> rfl
  refine .tagged hwrite fun room ms c h => ?_
  obtain ⟨tag, -, h⟩ := Option.bind_eq_some_iff.mp h
  have htag : ∀ name, (Json.string name).depth ≤ ms.level room := fun _ => Nat.zero_le _
  simp only [Option.bind_eq_bind, Option.pure_def] at h
  split at h
  case h_1 =>
    simp only [Option.bind_eq_some_iff, Option.some.injEq] at h
    obtain ⟨left, hleft, right, hright, rfl⟩ := h
    simp [members, htag, ((LeftValue.tight room).required hleft left).depth_write,
      ((Expr.tight room).required hright right).depth_write]
  case h_2 =>
    obtain ⟨text, -, h⟩ := Option.bind_eq_some_iff.mp h
    cases h
    simp [members, htag]
  case h_3 => cases h

theorem Operation.tight : ∀ room, Tight room Operation.toJson (Operation.ofJson? room) := by
  refine .record (fun _ => rfl) (by simp) fun room ms read other h => ?_
  simp only [Option.bind_eq_bind, Option.bind_eq_some_iff, Option.pure_def, Option.some.injEq] at h
  obtain ⟨_, hname, _, hparameters, _, hreturn, _, hcommands, rfl⟩ := h
  simp [Tight.string.required hname, Tight.listOrEmpty Parameter.tight hparameters,
    (ComplexType.tight room).optional hreturn, Tight.listOrEmpty Command.tight hcommands]

theorem RepositoryOperation.tight :
    ∀ room, Tight room RepositoryOperation.toJson (RepositoryOperation.ofJson? room) := by
  refine .record (fun _ => rfl) (by simp) fun room ms read other h => ?_
  simp only [Option.bind_eq_bind, Option.bind_eq_some_iff, Option.pure_def, Option.some.injEq] at h
  obtain ⟨_, hname, _, hparameters, _, hreturn, rfl⟩ := h
  simp [Tight.string.required hname, Tight.listOrEmpty Parameter.tight hparameters,
    (ComplexType.tight room).optional hreturn]

theorem Repository.tight : ∀ room, Tight room Repository.toJson (Repository.ofJson? room) := by
  refine .record (fun _ => rfl) (by simp) fun room ms read other h => ?_
  simp only [Option.bind_eq_bind, Option.bind_eq_some_iff, Option.pure_def, Option.some.injEq] at h
  obtain ⟨_, hname, _, hoperations, rfl⟩ := h
  simp [Tight.string.required hname, Tight.listOrEmpty RepositoryOperation.tight hoperations]

/-! ### Entity mappings and uses bindings -/

theorem AliasDeclaration.tight :
    ∀ room, Tight room AliasDeclaration.toJson (AliasDeclaration.ofJson? room) := by
  refine .record (fun _ => rfl) (by simp) fun room ms read other h => ?_
  simp only [Option.bind_eq_bind, Option.bind_eq_some_iff, Option.pure_def, Option.some.injEq] at h
  obtain ⟨_, hname, _, hreferences, rfl⟩ := h
  simp [Tight.string.required hname, Tight.handlesOrEmpty hreferences]

theorem AttributePathHead.tight (room : Nat) :
    Tight room AttributePathHead.toJson (AttributePathHead.ofJson? room) := by
  have hdepth : ∀ head : AttributePathHead, head.toJson.depth ≤ 1 := by
    rintro (_ | _)
    · exact Nat.zero_le 1
    · exact Nat.le_refl 1
  constructor
  · intro v head h
    have hhead := hdepth head
    omega
  · intro head head' h
    cases head with
    | root => exact Nat.zero_le _
    | declared name =>
      cases room with
      | zero => cases h
      | succ room => exact Nat.succ_le_succ (Nat.zero_le room)

theorem AttributePath.tight :
    ∀ room, Tight room AttributePath.toJson (AttributePath.ofJson? room) := by
  refine .record (fun _ => rfl) (by simp) fun room ms read other h => ?_
  simp only [Option.bind_eq_bind, Option.bind_eq_some_iff, Option.pure_def, Option.some.injEq] at h
  obtain ⟨_, hhead, _, hreferences, _, hattribute, rfl⟩ := h
  simp [(AttributePathHead.tight room).required hhead, Tight.handlesOrEmpty hreferences,
    Tight.string.required hattribute]

theorem EntityAttributeMapping.tight :
    ∀ room, Tight room EntityAttributeMapping.toJson (EntityAttributeMapping.ofJson? room) := by
  refine .record (fun _ => rfl) (by simp) fun room ms read other h => ?_
  simp only [Option.bind_eq_bind, Option.bind_eq_some_iff, Option.pure_def, Option.some.injEq] at h
  obtain ⟨_, hname, _, htype, _, hpath, rfl⟩ := h
  simp [Tight.string.required hname, Tight.string.required htype,
    (AttributePath.tight room).required hpath]

theorem EntityMapping.tight :
    ∀ room, Tight room EntityMapping.toJson (EntityMapping.ofJson? room) := by
  refine .record (fun _ => rfl) (by simp) fun room ms read other h => ?_
  simp only [Option.bind_eq_bind, Option.bind_eq_some_iff, Option.pure_def, Option.some.injEq] at h
  obtain ⟨_, hcontext, _, haggregate, _, hentity, _, haliases, _, hattributes, rfl⟩ := h
  simp [Tight.string.required hcontext, Tight.string.required haggregate,
    Tight.handle.optional hentity, Tight.listOrEmpty AliasDeclaration.tight haliases,
    Tight.listOrEmpty EntityAttributeMapping.tight hattributes]

theorem EntityUses.tight : ∀ room, Tight room EntityUses.toJson (EntityUses.ofJson? room) := by
  refine .record (fun _ => rfl) (by simp) fun room ms read other h => ?_
  simp only [Option.bind_eq_bind, Option.bind_eq_some_iff, Option.pure_def, Option.some.injEq] at h
  obtain ⟨_, hcontext, _, haggregate, _, hvalueObject, _, hantiCorruption, _, hbinder, rfl⟩ := h
  simp [Tight.handle.optional hcontext, Tight.handle.optional haggregate,
    Tight.handle.optional hvalueObject, Tight.string.optional hantiCorruption,
    Tight.string.required hbinder]

/-! ### Domain objects -/

theorem ObjectKind.depth_members {room : Nat} {ms : Members} {kind : ObjectKind}
    (h : ofMembers? tags room ms = some kind) :
    ∀ m ∈ kind.members, m.2.depth ≤ ms.level room := by
  obtain ⟨tag, -, h⟩ := Option.bind_eq_some_iff.mp h
  have htag : ∀ name, (Json.string name).depth ≤ ms.level room := fun _ => Nat.zero_le _
  simp only [Option.bind_eq_bind, Option.pure_def] at h
  split at h
  case h_1 =>
    simp only [Option.bind_eq_some_iff, Option.some.injEq] at h
    obtain ⟨mapping, hmapping, uses, huses, rfl⟩ := h
    simp [members, htag, ((EntityMapping.tight room).optional hmapping mapping).depth_write,
      ((EntityUses.tight room).optional huses uses).depth_write]
  case h_2 | h_3 =>
    cases h
    simp [members, htag]
  case h_4 =>
    obtain ⟨lifecycle, -, h⟩ := Option.bind_eq_some_iff.mp h
    cases h
    have hflag : (Json.bool lifecycle).depth ≤ ms.level room := Nat.zero_le _
    simp [members, htag, hflag]
  case h_5 => cases h

namespace DomainObject

/-- The members that all kinds share: those before the members of the kind, and those after. -/
def sharedMembers (o : DomainObject) : List (String × Json) × List (String × Json) :=
  ([("name", .string o.name), ("aggregate", ofHandle o.aggregate)],
    [("aggregate_root", .bool o.aggregateRoot), ("attributes", ofList ofHandle o.attributes),
      ("references", ofList ofHandle o.references),
      ("constructor", ofOption Constructor.toJson o.constructor),
      ("repository", ofOption Repository.toJson o.repository),
      ("operations", ofList Operation.toJson o.operations)])

/-- All members of a domain object, in order. -/
def members (o : DomainObject) : List (String × Json) :=
  o.sharedMembers.1 ++ o.kind.members ++ o.sharedMembers.2

theorem mem_members {o : DomainObject} {m : String × Json} :
    m ∈ o.members ↔ m ∈ o.sharedMembers.1 ++ o.sharedMembers.2 ∨ m ∈ o.kind.members := by
  simp only [members, List.mem_append]
  tauto

theorem keys_members (o : DomainObject) : (o.members.map (·.1)).Nodup := by
  unfold members sharedMembers
  cases o.kind <;> simp [ObjectKind.members]

theorem key_not_mem_sharedFields (kind : ObjectKind) :
    ∀ m ∈ kind.members, m.1 ∉ sharedFields := by
  cases kind <;> simp [ObjectKind.members, sharedFields]

/-- The members of the kind fit where there is room; the shared ones are those of a plain record. -/
theorem gives_sharedMembers {room : Nat} (ms : Members) {o : DomainObject}
    (h : ofJson? (room + 1) (.object ms.entries) = some o) (o' : DomainObject) :
    ms.othersFit sharedFields room = true ∧
      ObjectKind.ofMembers? ObjectKind.tags room ms = some o.kind ∧
      List.Forall₂ (fun m n => ms.Gives room n.1 m.2 n.2)
        (o.sharedMembers.1 ++ o.sharedMembers.2) (o'.sharedMembers.1 ++ o'.sharedMembers.2) := by
  simp only [ofJson?, Json.keyed, Json.recordBy] at h
  split at h
  · next hfit =>
    simp only [Option.bind_eq_bind, Option.bind_eq_some_iff, Option.pure_def,
      Option.some.injEq] at h
    obtain ⟨name, hname, aggregate, haggregate, kind, hkind, root, hroot, attributes,
      hattributes, references, hreferences, constructor, hconstructor, repository, hrepository,
      operations, hoperations, rfl⟩ := h
    refine ⟨hfit, hkind, ?_⟩
    simp [sharedMembers, Tight.string.required hname, Tight.handle.required haggregate,
      Tight.bool.withDefault (Nat.zero_le 1) hroot, Tight.handlesOrEmpty hattributes,
      Tight.handlesOrEmpty hreferences, (Constructor.tight room).optional hconstructor,
      (Repository.tight room).optional hrepository, Tight.listOrEmpty Operation.tight hoperations]
  · cases h

theorem tight (room : Nat) : Tight room toJson (ofJson? room) := by
  have hwrite : ∀ o : DomainObject, o.toJson = .object o.members := fun _ => rfl
  cases room with
  | zero => exact .of_eq_none fun _ => rfl
  | succ room =>
    unfold ofJson? Json.keyed
    refine .of_members hwrite (fun ms o h m hm => ?_) fun o o' h m hm => ?_
    · obtain ⟨-, hkind, hshared⟩ := gives_sharedMembers ms h o
      rcases mem_members.mp hm with hm | hm
      · exact Json.forall_mem_of_forall₂ hshared (fun _ _ hgives => hgives.depth_write) m hm
      · exact ObjectKind.depth_members hkind m hm
    · obtain ⟨hfit, -, hshared⟩ := gives_sharedMembers ⟨o.members⟩ h o
      have hfields : ∀ n ∈ o.sharedMembers.1 ++ o.sharedMembers.2,
          Members.field ⟨o.members⟩ n.1 = .once n.2 := fun n hn =>
        Members.field_of_mem o.keys_members (mem_members.mpr (Or.inl hn))
      have hpairs := (List.forall₂_and_left _ _).mpr ⟨hfields, hshared.flip⟩
      rcases mem_members.mp hm with hm' | hm'
      · exact Json.forall_mem_of_forall₂ hpairs (fun _ _ hgives => hgives.2.depth_le hgives.1) m hm'
      · exact Json.depth_le_of_othersFit hfit hm (key_not_mem_sharedFields o.kind m hm')

end DomainObject

/-! ### Attributes and references -/

theorem AttributeUses.tight :
    ∀ room, Tight room AttributeUses.toJson (AttributeUses.ofJson? room) := by
  refine .record (fun _ => rfl) (by simp) fun room ms read other h => ?_
  simp only [Option.bind_eq_bind, Option.bind_eq_some_iff, Option.pure_def, Option.some.injEq] at h
  obtain ⟨_, hbinder, _, hattribute, rfl⟩ := h
  simp [Tight.string.required hbinder, Tight.string.required hattribute]

theorem Attribute.tight : ∀ room, Tight room Attribute.toJson (Attribute.ofJson? room) := by
  refine .record (fun _ => rfl) (by simp) fun room ms read other h => ?_
  simp only [Option.bind_eq_bind, Option.bind_eq_some_iff, Option.pure_def, Option.some.injEq] at h
  obtain ⟨_, hname, _, htype, _, howner, _, hkey, _, huses, rfl⟩ := h
  simp [Tight.string.required hname, Tight.string.required htype, Tight.handle.required howner,
    Tight.bool.withDefault (Nat.zero_le 1) hkey, (AttributeUses.tight room).optional huses]

theorem Reference.tight : ∀ room, Tight room Reference.toJson (Reference.ofJson? room) := by
  refine .record (fun _ => rfl) (by simp) fun room ms read other h => ?_
  simp only [Option.bind_eq_bind, Option.bind_eq_some_iff, Option.pure_def, Option.some.injEq] at h
  obtain ⟨_, hname, _, howner, _, htarget, _, hcollection, rfl⟩ := h
  simp [Tight.string.required hname, Tight.handle.required howner, Tight.handle.optional htarget,
    Tight.word.withDefault (Nat.zero_le 1) hcollection]

/-! ### Anti-corruption declarations -/

theorem AttributeTranslation.tight :
    ∀ room, Tight room AttributeTranslation.toJson (AttributeTranslation.ofJson? room) := by
  refine .record (fun _ => rfl) (by simp) fun room ms read other h => ?_
  simp only [Option.bind_eq_bind, Option.bind_eq_some_iff, Option.pure_def, Option.some.injEq] at h
  obtain ⟨_, hname, _, htype, _, hentity, _, hattribute, _, halias, rfl⟩ := h
  simp [Tight.string.required hname, Tight.string.required htype, Tight.handle.optional hentity,
    Tight.handle.optional hattribute, Tight.string.optional halias]

theorem AntiCorruption.tight :
    ∀ room, Tight room AntiCorruption.toJson (AntiCorruption.ofJson? room) := by
  refine .record (fun _ => rfl) (by simp) fun room ms read other h => ?_
  simp only [Option.bind_eq_bind, Option.bind_eq_some_iff, Option.pure_def, Option.some.injEq] at h
  obtain ⟨_, hname, _, hkind, _, howner, _, hcontext, _, haggregate, _, hattributes, _,
    hinvariants, rfl⟩ := h
  simp [Tight.string.required hname, Tight.word.required hkind, Tight.handle.required howner,
    Tight.handle.optional hcontext, Tight.handle.optional haggregate,
    Tight.listOrEmpty AttributeTranslation.tight hattributes,
    Tight.listOrEmpty Invariant.tight hinvariants]

/-! ### Models -/

theorem Model.tight : ∀ room, Tight room Model.toJson (Model.ofJson? room) := by
  refine .record (fun _ => rfl) (by simp) fun room ms read other h => ?_
  simp only [Option.bind_eq_bind, Option.bind_eq_some_iff, Option.pure_def, Option.some.injEq] at h
  obtain ⟨_, hcontexts, _, hmodules, _, haggregates, _, hobjects, _, hattributes, _,
    hreferences, _, hantiCorruptions, _, hcontextMaps, _, hrelationships, rfl⟩ := h
  simp [Tight.listOrEmpty BoundedContext.tight hcontexts, Tight.listOrEmpty Module.tight hmodules,
    Tight.listOrEmpty Aggregate.tight haggregates, Tight.listOrEmpty DomainObject.tight hobjects,
    Tight.listOrEmpty Attribute.tight hattributes, Tight.listOrEmpty Reference.tight hreferences,
    Tight.listOrEmpty AntiCorruption.tight hantiCorruptions,
    Tight.listOrEmpty ContextMap.tight hcontextMaps,
    Tight.listOrEmpty Relationship.tight hrelationships]

end DomainModel
