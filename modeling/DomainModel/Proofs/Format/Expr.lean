import DomainModel.Expr.Format
import DomainModel.Proofs.Json.Record

/-! # Written expressions are read back

The proof follows the forms. Every form but the operators has a tag of its own; the four tags of
operators share the last branch of the reader, which takes the operator from the vocabulary of its
tag. -/

namespace DomainModel

open Json (Codec Members Plain Reads depth_array_le depth_object_le ofHandle ofList ofWord)

/-! ### Operators and heads -/

theorem BinaryOp.plain_toJson (op : BinaryOp) : Plain op.toJson := by
  cases op <;> exact .string _

theorem BinaryOp.ofJson?_toJson (op : BinaryOp) {room : Nat} (h : op.toJson.depth ≤ room) :
    BinaryOp.ofJson? op.formName room op.toJson = some op := by
  cases op with
  | boolean op | comparison op | addition op | multiplication op =>
    unfold toJson at h ⊢
    simp only [formName, ofJson?, (Codec.word true).read_write op room h]
    rfl

theorem PathHead.reads_query (operation : String) (params : List String) :
    Reads [("operation", .string operation), ("params", ofList .string params)]
      (fun room ms => do
        return .query (← ms.required "operation" Json.toString?)
          (← ms.withDefault "params" [] (Json.strings room)))
      (PathHead.query operation params) := by
  refine ⟨by simp, by simp [Plain.string, Codec.strings.plain], fun room h => ?_⟩
  simp only [List.forall_mem_cons] at h
  obtain ⟨hoperation, hparams, -⟩ := h
  rw [Codec.string.required hoperation, Codec.strings.withDefault hparams]
  rfl

theorem PathHead.codec : Codec PathHead.toJson PathHead.ofJson? where
  plain head := by
    cases head with
    | root => exact .string _
    | «variable» name => exact .object (by simp [Plain.string])
    | query operation params =>
      exact .object (by simpa using .object (reads_query operation params).plain)
  read_write head room h := by
    cases head with
    | root => rfl
    | «variable» name =>
      obtain ⟨r, rfl, -⟩ := depth_object_le.mp h
      rfl
    | query operation params =>
      obtain ⟨r, rfl, hr⟩ := depth_object_le.mp h
      exact (reads_query operation params).recordBy _ (hr _ (List.mem_singleton_self _))

theorem Form.chain_codec :
    Codec (fun chain => .object [("properties", ofList .string chain)]) Form.chainOfJson? := by
  refine .record fun chain => ⟨_, rfl, by simp, by simp [Codec.strings.plain], fun room h => ?_⟩
  rw [List.forall_mem_singleton] at h
  exact Codec.strings.required h

/-! ### Members -/

theorem Form.keys_members (id : ExprId) (form : Form) :
    ((("id", ofHandle id) :: form.members).map (·.1)).Nodup := by
  cases form <;> simp [members]

mutual

theorem Expr.plain_toJson : ∀ e : Expr, Plain e.toJson
  | ⟨id, form⟩ => by
    rw [Expr.toJson]
    refine .object (List.forall_mem_cons.mpr ⟨Codec.handle.plain id, ?_⟩)
    exact Form.plain_members form

theorem Form.plain_members : ∀ form : Form, ∀ m ∈ form.members, Plain m.2
  | .binary op left right => by
    simp [Form.members, Plain.string, op.plain_toJson, Expr.plain_toJson left,
      Expr.plain_toJson right]
  | .lone op operand => by
    simp [Form.members, Plain.string, Plain.null, op.plain_toJson, Expr.plain_toJson operand]
  | .negation operand => by simp [Form.members, Plain.string, Expr.plain_toJson operand]
  | .signed op operand => by
    simp [Form.members, Plain.string, (Codec.word true).plain, Expr.plain_toJson operand]
  | .ternary condition thenValue elseValue => by
    simp [Form.members, Plain.string, Expr.plain_toJson condition, Expr.plain_toJson thenValue,
      Expr.plain_toJson elseValue]
  | .final chains => by simp [Form.members, Plain.string, (Codec.list Form.chain_codec).plain]
  | .path head properties methods => by
    simp [Form.members, Plain.string, Codec.plain PathHead.codec, Codec.strings.plain,
      Plain.array (Expr.plain_methodsToJson methods)]
  | .parenthesized inner => by simp [Form.members, Plain.string, Expr.plain_toJson inner]
  | .number _ | .string _ => by simp [Form.members, Plain.string]
  | .bool _ => by simp [Form.members, Plain.string, Plain.bool]
  | .null | .now => by simp [Form.members, Plain.string]

theorem Expr.plain_methodsToJson : ∀ methods : List Method,
    ∀ v ∈ Expr.methodsToJson methods, Plain v
  | [] => by simp [Expr.methodsToJson]
  | .simple method :: methods => by
    rw [Expr.methodsToJson, List.forall_mem_cons]
    refine ⟨.object ?_, Expr.plain_methodsToJson methods⟩
    simp [Plain.string, (Codec.word true).plain]
  | .parametric method binder body :: methods => by
    rw [Expr.methodsToJson, List.forall_mem_cons]
    refine ⟨.object ?_, Expr.plain_methodsToJson methods⟩
    simp [Plain.string, (Codec.word true).plain, Expr.plain_toJson body]

end

/-! ### Reading -/

/-- The tags of operators are left to the last branch of the reader. -/
theorem Form.ofMembers?_operator {readExpr : Json → Option Expr}
    {readMethods : Json → Option (List Method)} {room : Nat} {ms : Members} {op : BinaryOp}
    (htag : ms.Has room "expr" (.string op.formName)) :
    Form.ofMembers? readExpr readMethods room ms = (do
      let left ← ms.required "left" readExpr
      let op ← ms.required "op" (BinaryOp.ofJson? op.formName room)
      match ← ms.optional "right" readExpr with
      | some right => return .binary op left right
      | none => return .lone op left) := by
  unfold Form.ofMembers?
  rw [Codec.tag htag]
  cases op <;> rfl

theorem Method.ofJson?_object {members : List (String × Json)} {method : Method}
    (h : Reads members (fun room => Method.ofMembers? (Expr.ofJson? room) room) method)
    {room : Nat} (hdepth : (Json.object members).depth ≤ room) :
    Method.ofJson? room (.object members) = some method := by
  obtain ⟨r, rfl, hr⟩ := depth_object_le.mp hdepth
  have hhas := Json.has_of_depth h.keys hr
  rw [Method.ofJson?, Json.tagged, Json.recordBy,
    if_pos (Json.othersFit_of_plain h.plain hhas []), h.read_eq r hhas]

theorem Method.reads_simple (method : SimpleMethod) :
    Reads [("kind", .string "simple"), ("method", ofWord method)]
      (fun room => Method.ofMembers? (Expr.ofJson? room) room) (.simple method) := by
  refine ⟨by simp, by simp [Plain.string, (Codec.word true).plain], fun room h => ?_⟩
  simp only [List.forall_mem_cons] at h
  obtain ⟨htag, hmethod, -⟩ := h
  simp [Method.ofMembers?, Codec.tag htag, (Codec.word true).required hmethod]

/-- A call with a lambda is read back if its body is. -/
theorem Method.reads_parametric (method : ParametricMethod) (binder : String) {body : Expr}
    (hplain : Plain body.toJson)
    (hbody : ∀ room, body.toJson.depth ≤ room → Expr.ofJson? room body.toJson = some body) :
    Reads [("kind", .string "parametric"), ("method", ofWord method),
        ("variable", .string binder), ("body", body.toJson)]
      (fun room => Method.ofMembers? (Expr.ofJson? room) room)
      (.parametric method binder body) := by
  refine ⟨by simp, by simp [Plain.string, (Codec.word true).plain, hplain], fun room h => ?_⟩
  simp only [List.forall_mem_cons] at h
  obtain ⟨htag, hmethod, hbinder, hhas, -⟩ := h
  simp [Method.ofMembers?, Codec.tag htag, (Codec.word true).required hmethod,
    Codec.string.required hbinder, hhas.required (hbody room hhas.depth_le)]

theorem Expr.toJson_ne_null (e : Expr) : e.toJson ≠ .null := by
  cases e
  rw [toJson]
  exact Json.object_ne_null _

mutual

theorem Expr.ofJson?_toJson : ∀ (e : Expr) (room : Nat), e.toJson.depth ≤ room →
    Expr.ofJson? room e.toJson = some e
  | ⟨id, form⟩, room, h => by
    rw [Expr.toJson] at h ⊢
    obtain ⟨r, rfl, hr⟩ := depth_object_le.mp h
    have hhas := Json.has_of_depth (Form.keys_members id form) hr
    have hplain : ∀ m ∈ ("id", ofHandle id) :: form.members, Plain m.2 :=
      List.forall_mem_cons.mpr ⟨Codec.handle.plain id, form.plain_members⟩
    obtain ⟨hid, hform⟩ := List.forall_mem_cons.mp hhas
    rw [Expr.ofJson?, if_pos (Json.othersFit_of_plain hplain hhas ["id"]),
      Codec.handle.withDefault hid, Form.ofMembers?_members form hform]
    rfl

theorem Form.ofMembers?_members : ∀ (form : Form) {room : Nat} {ms : Members},
    (∀ m ∈ form.members, ms.Has room m.1 m.2) →
    Form.ofMembers? (Expr.ofJson? room) (Expr.methodsOfJson? room) room ms = some form
  | .binary op left right, room, ms, h => by
    simp only [Form.members, List.forall_mem_cons] at h
    obtain ⟨htag, hleft, hop, hright, -⟩ := h
    rw [Form.ofMembers?_operator htag, hleft.required (Expr.ofJson?_toJson left _ hleft.depth_le),
      hop.required (op.ofJson?_toJson hop.depth_le),
      hright.optional_some right.toJson_ne_null (Expr.ofJson?_toJson right _ hright.depth_le)]
    rfl
  | .lone op operand, room, ms, h => by
    simp only [Form.members, List.forall_mem_cons] at h
    obtain ⟨htag, hleft, hop, hright, -⟩ := h
    rw [Form.ofMembers?_operator htag,
      hleft.required (Expr.ofJson?_toJson operand _ hleft.depth_le),
      hop.required (op.ofJson?_toJson hop.depth_le), hright.optional_none]
    rfl
  | .negation operand, room, ms, h => by
    simp only [Form.members, List.forall_mem_cons] at h
    obtain ⟨htag, hoperand, -⟩ := h
    have hread := Expr.ofJson?_toJson operand room hoperand.depth_le
    simp [Form.ofMembers?, Codec.tag htag, hoperand.required hread]
  | .signed op operand, room, ms, h => by
    simp only [Form.members, List.forall_mem_cons] at h
    obtain ⟨htag, hop, hoperand, -⟩ := h
    have hread := Expr.ofJson?_toJson operand room hoperand.depth_le
    simp [Form.ofMembers?, Codec.tag htag, (Codec.word true).required hop, hoperand.required hread]
  | .ternary condition thenValue elseValue, room, ms, h => by
    simp only [Form.members, List.forall_mem_cons] at h
    obtain ⟨htag, hcondition, hthen, helse, -⟩ := h
    have hcondition := hcondition.required (Expr.ofJson?_toJson condition _ hcondition.depth_le)
    have hthen := hthen.required (Expr.ofJson?_toJson thenValue _ hthen.depth_le)
    have helse := helse.required (Expr.ofJson?_toJson elseValue _ helse.depth_le)
    simp [Form.ofMembers?, Codec.tag htag, hcondition, hthen, helse]
  | .final chains, room, ms, h => by
    simp only [Form.members, List.forall_mem_cons] at h
    obtain ⟨htag, helements, -⟩ := h
    simp [Form.ofMembers?, Codec.tag htag, (Codec.list Form.chain_codec).required helements]
  | .path head properties methods, room, ms, h => by
    simp only [Form.members, List.forall_mem_cons] at h
    obtain ⟨htag, hhead, hproperties, hmethods, -⟩ := h
    obtain ⟨r, rfl, hr⟩ := depth_array_le.mp hmethods.depth_le
    have hmethods : ms.withDefault "methods" [] (Expr.methodsOfJson? (r + 1)) = some methods :=
      hmethods.withDefault (Expr.mapM_methodsToJson methods hr)
    simp [Form.ofMembers?, Codec.tag htag, Codec.required PathHead.codec hhead,
      Codec.strings.withDefault hproperties, hmethods]
  | .parenthesized inner, room, ms, h => by
    simp only [Form.members, List.forall_mem_cons] at h
    obtain ⟨htag, hinner, -⟩ := h
    have hread := Expr.ofJson?_toJson inner room hinner.depth_le
    simp [Form.ofMembers?, Codec.tag htag, hinner.required hread]
  | .number _, room, ms, h | .string _, room, ms, h => by
    simp only [Form.members, List.forall_mem_cons] at h
    obtain ⟨htag, hvalue, -⟩ := h
    simp [Form.ofMembers?, Codec.tag htag, Codec.string.required hvalue]
  | .bool _, room, ms, h => by
    simp only [Form.members, List.forall_mem_cons] at h
    obtain ⟨htag, hvalue, -⟩ := h
    simp [Form.ofMembers?, Codec.tag htag, Codec.bool.required hvalue]
  | .null, room, ms, h | .now, room, ms, h => by
    simp only [Form.members, List.forall_mem_cons] at h
    obtain ⟨htag, -⟩ := h
    simp [Form.ofMembers?, Codec.tag htag]

theorem Expr.mapM_methodsToJson : ∀ (methods : List Method) {room : Nat},
    (∀ v ∈ Expr.methodsToJson methods, v.depth ≤ room) →
    (Expr.methodsToJson methods).mapM (Method.ofJson? room) = some methods
  | [], room, h => rfl
  | .simple method :: methods, room, h => by
    rw [Expr.methodsToJson, List.forall_mem_cons] at h
    rw [Expr.methodsToJson, List.mapM_cons,
      Method.ofJson?_object (Method.reads_simple method) h.1, Expr.mapM_methodsToJson methods h.2]
    rfl
  | .parametric method binder body :: methods, room, h => by
    rw [Expr.methodsToJson, List.forall_mem_cons] at h
    have hbody := Method.reads_parametric method binder body.plain_toJson
      (fun room => Expr.ofJson?_toJson body room)
    rw [Expr.methodsToJson, List.mapM_cons, Method.ofJson?_object hbody h.1,
      Expr.mapM_methodsToJson methods h.2]
    rfl

end

theorem Expr.codec : Codec Expr.toJson Expr.ofJson? := ⟨Expr.plain_toJson, Expr.ofJson?_toJson⟩

end DomainModel
