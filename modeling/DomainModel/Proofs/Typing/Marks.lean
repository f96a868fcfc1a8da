import Mathlib.Data.List.Nodup
import DomainModel.Typing.Infer

/-! # Where an expression is marked

`e.Place l` lists the places at which a check may mark the node `e`: the features of its form, and
in a feature that is a list the positions of the list. The rules of the single forms keep to these
places and never mark one of them twice (`Check.Marks`).

Along a path there is more to say: its start, its properties and its methods are checked one after
the other, and the first fault ends the check. `c.Stops P stop` says of a check `c` that it is
silent, or else reports once, at a place with the property `P`, and has the value `stop`. -/

namespace DomainModel

/-! ### Places -/

/-- Where the start of the path `id` is marked. -/
inductive PathHead.Place (id : ExprId) : PathHead → Location → Prop where
  | element {head : PathHead} : Place id head ⟨.expr id, .headElement, none⟩
  | operation {operation : String} {params : List String} :
    Place id (.query operation params) ⟨.expr id, .queryOperation, none⟩
  | param {operation : String} {params : List String} {i : Nat} (h : i < params.length) :
    Place id (.query operation params) ⟨.expr id, .queryParams, some i⟩

/-- Where an expression is marked, its parts apart. -/
inductive Expr.Place : Expr → Location → Prop where
  | left {id : ExprId} {op : BinaryOp} {left right : Expr} :
    Place ⟨id, .binary op left right⟩ ⟨.expr id, .left, none⟩
  | right {id : ExprId} {op : BinaryOp} {left right : Expr} :
    Place ⟨id, .binary op left right⟩ ⟨.expr id, .right, none⟩
  | operator {id : ExprId} {op : BinaryOp} {left right : Expr} :
    Place ⟨id, .binary op left right⟩ ⟨.expr id, .operator, none⟩
  | negation {id : ExprId} {operand : Expr} :
    Place ⟨id, .negation operand⟩ ⟨.expr id, .operand, none⟩
  | signed {id : ExprId} {op : AdditiveOp} {operand : Expr} :
    Place ⟨id, .signed op operand⟩ ⟨.expr id, .operand, none⟩
  | condition {id : ExprId} {condition thenValue elseValue : Expr} :
    Place ⟨id, .ternary condition thenValue elseValue⟩ ⟨.expr id, .condition, none⟩
  | thenValue {id : ExprId} {condition thenValue elseValue : Expr} :
    Place ⟨id, .ternary condition thenValue elseValue⟩ ⟨.expr id, .thenValue, none⟩
  | elseValue {id : ExprId} {condition thenValue elseValue : Expr} :
    Place ⟨id, .ternary condition thenValue elseValue⟩ ⟨.expr id, .elseValue, none⟩
  | finalElements {id : ExprId} {chains : List (List String)} :
    Place ⟨id, .final chains⟩ ⟨.expr id, .finalElements, none⟩
  | chain {id : ExprId} {chains : List (List String)} {i : Nat} (h : i < chains.length) :
    Place ⟨id, .final chains⟩ ⟨.expr id, .finalElements, some i⟩
  | head {id : ExprId} {head : PathHead} {properties : List String} {methods : List Method}
    {l : Location} (h : head.Place id l) : Place ⟨id, .path head properties methods⟩ l
  | property {id : ExprId} {head : PathHead} {properties : List String} {methods : List Method}
    {i : Nat} (h : i < properties.length) :
    Place ⟨id, .path head properties methods⟩ ⟨.expr id, .properties, some i⟩
  | method {id : ExprId} {head : PathHead} {properties : List String} {methods : List Method}
    {i : Nat} (h : i < methods.length) :
    Place ⟨id, .path head properties methods⟩ ⟨.expr id, .methods, some i⟩

theorem PathHead.Place.node_eq {id : ExprId} {head : PathHead} {l : Location}
    (h : head.Place id l) : l.node = .expr id := by
  cases h <;> rfl

/-- All places of a node are places of its number. -/
theorem Expr.Place.node_eq {e : Expr} {l : Location} (h : e.Place l) : l.node = .expr e.id := by
  cases h with
  | head h => exact h.node_eq
  | _ => rfl

/-! ### Checks that mark places -/

namespace Check

variable {α β : Type} {P Q : Location → Prop}

/-- Every finding is at a place with the property, and no place is marked twice. -/
structure Marks (P : Location → Prop) (c : Check α) : Prop where
  place : ∀ f ∈ c.findings, P f.location
  nodup : (c.findings.map (·.location)).Nodup

/-- The check is silent, or it reports once and has the value `stop`. -/
def Stops (P : Location → Prop) (stop : α) (c : Check α) : Prop :=
  c.findings = [] ∨ ∃ f, c.findings = [f] ∧ P f.location ∧ c.value = stop

theorem Marks.of_findings_eq {c : Check α} {d : Check β} (hd : d.Marks P)
    (h : c.findings = d.findings) : c.Marks P := by
  constructor
  · rw [h]
    exact hd.place
  · rw [h]
    exact hd.nodup

theorem marks_of_findings_nil {c : Check α} (h : c.findings = []) : c.Marks P := by
  constructor
  · rw [h]
    simp
  · rw [h]
    exact List.nodup_nil

theorem Stops.marks {stop : α} {c : Check α} (h : c.Stops P stop) : c.Marks P := by
  rcases h with h | ⟨f, h, hf, -⟩
  · exact marks_of_findings_nil h
  · constructor
    · rw [h]
      simpa using hf
    · rw [h]
      exact List.nodup_singleton _

theorem Stops.mono {stop : α} {c : Check α} (h : c.Stops P stop) (hPQ : ∀ l, P l → Q l) :
    c.Stops Q stop := by
  rcases h with h | ⟨f, h, hf, hv⟩
  · exact Or.inl h
  · exact Or.inr ⟨f, h, hPQ _ hf, hv⟩

/-- A check that stops short of its bad value has been silent. -/
theorem Stops.findings_eq_nil {stop : α} {c : Check α} (h : c.Stops P stop)
    (hv : c.value ≠ stop) : c.findings = [] := by
  rcases h with h | ⟨_, _, _, hstop⟩
  · exact h
  · exact absurd hstop hv

theorem stops_pure {stop a : α} : (pure a : Check α).Stops P stop := Or.inl rfl

/-- What comes behind a check that stops has to keep silent about it. -/
theorem Stops.bind {c : Check α} {f : α → Check β} {stop : α} {stop' : β} (hc : c.Stops P stop)
    (hstop : f stop = pure stop') (hf : ∀ a, (f a).Stops P stop') : (c >>= f).Stops P stop' := by
  rcases hc with h | ⟨g, h, hg, hv⟩
  · unfold Stops
    rw [findings_bind, value_bind, h, List.nil_append]
    exact hf c.value
  · refine Or.inr ⟨g, ?_, hg, ?_⟩
    · rw [findings_bind, h, hv, hstop]
      rfl
    · rw [value_bind, hv, hstop]
      rfl

/-- The rest of a check is reached only behind silence. -/
theorem Stops.bind_marks {c : Check α} {f : α → Check β} {stop : α} (hc : c.Stops P stop)
    (hstop : (f stop).findings = []) (hf : ∀ a, a ≠ stop → (f a).Marks P) :
    (c >>= f).Marks P := by
  by_cases hv : c.value = stop
  · refine hc.marks.of_findings_eq ?_
    rw [findings_bind, hv, hstop, List.append_nil]
  · refine (hf c.value hv).of_findings_eq ?_
    rw [findings_bind, hc.findings_eq_nil hv, List.nil_append]

/-- A look-up in front reports nothing. -/
theorem stops_lift_bind {x : Lookup α} {f : α → Check β} {stop : β}
    (h : (f x.value).Stops P stop) : ((liftM x : Check α) >>= f).Stops P stop := by
  unfold Stops
  rw [findings_bind, value_bind, findings_lift, List.nil_append]
  exact h

end Check

open Check (Marks Stops stops_pure stops_lift_bind)

/-! ### Walks -/

theorem Model.lt_of_walkFrom (m : Model) {o : ObjectId} {position i : Nat}
    {properties : List String} (h : (m.walkFrom position o properties).value = .error i) :
    i < position + properties.length := by
  induction properties generalizing o position with
  | nil => cases h
  | cons property rest ih =>
    rw [List.length_cons]
    unfold walkFrom at h
    rw [Lookup.value_bind] at h
    split at h
    · have := ih h
      omega
    · split at h
      · cases h
      · cases h
        simp
    · cases h
      omega

/-- A walk that fails gives a position in its chain. -/
theorem Model.lt_of_walk (m : Model) {o : ObjectId} {i : Nat} {properties : List String}
    (h : (m.walk o properties).value = .error i) : i < properties.length := by
  have := m.lt_of_walkFrom h
  omega

namespace Env

variable (env : Env) {P : Location → Prop}

/-! ### Heads -/

theorem stops_refuse {α : Type} {id : ExprId} {f : Feature} {p : Problem}
    (h : P ⟨.expr id, f, none⟩) : (refuse id f p : Check (Option α)).Stops P none :=
  Or.inr ⟨_, rfl, h, rfl⟩

theorem stops_refuseAt {α : Type} {id : ExprId} {f : Feature} {i : Nat} {p : Problem}
    (h : P ⟨.expr id, f, some i⟩) : (refuseAt id f i p : Check (Option α)).Stops P none :=
  Or.inr ⟨_, rfl, h, rfl⟩

theorem stops_root {id : ExprId} {feature : Feature} (h : P ⟨.expr id, feature, none⟩) :
    (env.root id feature).Stops P none := by
  unfold root
  cases env.aggregate with
  | none => exact stops_refuse h
  | some a =>
    refine stops_lift_bind ?_
    cases (env.model.rootEntity a).value with
    | none => exact stops_refuse h
    | some o => exact stops_pure

theorem stops_variableStart {id : ExprId} (h : P ⟨.expr id, .headElement, none⟩) (name : String)
    (type : Ty) : (env.variableStart id name type).Stops P none := by
  unfold variableStart
  cases type with
  | error | collection t | optional t => exact stops_pure
  | primitive n | entity n =>
    refine stops_lift_bind ?_
    split
    · exact stops_pure
    · split
      · exact stops_pure
      · exact stops_refuse h
  | final | null => exact stops_refuse h

theorem stops_queryOperation {id : ExprId} (h : P ⟨.expr id, .queryOperation, none⟩)
    (name : String) : (env.queryOperation id name).Stops P none := by
  refine (env.stops_root h).bind rfl fun root => ?_
  cases root with
  | none => exact stops_pure
  | some root =>
    refine stops_lift_bind ?_
    split
    · exact stops_refuse h
    · split
      · exact stops_refuse h
      · exact stops_pure

theorem stops_queryStart {id : ExprId} (h : P ⟨.expr id, .queryOperation, none⟩) (name : String)
    (operation : RepositoryOperation) : (env.queryStart id name operation).Stops P none := by
  refine stops_lift_bind ?_
  split
  · exact stops_refuse h
  · refine stops_lift_bind ?_
    split
    · exact stops_lift_bind (stops_refuse h)
    · split
      · exact stops_lift_bind stops_pure
      · exact stops_pure

theorem lt_of_undeclaredParam {scope : Scope} {params : List String} {param : String} {i : Nat}
    (h : undeclaredParam scope params = some (param, i)) : i < params.length := by
  have hmem := List.mem_of_find?_eq_some h
  exact List.snd_lt_of_mem_zipIdx hmem

theorem lt_of_mismatchedParam {scope : Scope} {params : List String} {declared : List Parameter}
    {param : String} {i : Nat}
    (h : (env.mismatchedParam scope params declared).value = some (param, i)) :
    i < params.length := by
  unfold mismatchedParam at h
  rw [Lookup.value_bind, Lookup.value_find?] at h
  obtain ⟨found, hfind, hfound⟩ := Option.map_eq_some_iff.mp h
  have hmem := List.mem_of_find?_eq_some hfind
  have hlt := List.snd_lt_of_mem_zipIdx hmem
  obtain ⟨pair, j⟩ := found
  cases hfound
  rw [List.length_zip] at hlt
  exact Nat.lt_of_lt_of_le hlt (Nat.min_le_left _ _)

theorem stops_query (id : ExprId) (name : String) (params : List String) (scope : Scope) :
    (env.query id name params scope).Stops ((PathHead.query name params).Place id) none := by
  refine (env.stops_queryOperation .operation name).bind rfl fun operation => ?_
  cases operation with
  | none => exact stops_pure
  | some operation =>
    dsimp only
    split
    · exact stops_refuse .operation
    · split
      · next param i hfind => exact stops_refuseAt (.param (lt_of_undeclaredParam hfind))
      · refine stops_lift_bind ?_
        split
        · next param i hfind =>
          exact stops_refuseAt (.param (env.lt_of_mismatchedParam hfind))
        · exact env.stops_queryStart .operation name operation

theorem stops_head (id : ExprId) (scope : Scope) (kind : ScopeKind) (head : PathHead) :
    (env.head id scope kind head).Stops (head.Place id) none := by
  cases head with
  | root =>
    rw [Env.head]
    split
    · exact stops_refuse .element
    · exact (env.stops_root .element).bind rfl fun _ => stops_pure
  | query operation params =>
    rw [Env.head]
    split
    · exact stops_refuse .operation
    · exact env.stops_query id operation params scope
  | «variable» name =>
    rw [Env.head]
    split
    · exact stops_refuse .element
    · split
      · exact stops_refuse .element
      · exact env.stops_variableStart .element name _

/-! ### Properties and methods -/

theorem stops_fail {id : ExprId} {f : Feature} {p : Problem} (h : P ⟨.expr id, f, none⟩) :
    (fail id f p).Stops P .error :=
  Or.inr ⟨_, rfl, h, rfl⟩

theorem stops_failAt {id : ExprId} {f : Feature} {i : Nat} {p : Problem}
    (h : P ⟨.expr id, f, some i⟩) : (failAt id f i p).Stops P .error :=
  Or.inr ⟨_, rfl, h, rfl⟩

theorem stops_propertyError {id : ExprId} {properties : List String} {position : Nat}
    (h : P ⟨.expr id, .properties, some position⟩) :
    (propertyError id properties position).Stops P .error :=
  stops_lift_bind (stops_failAt h)

theorem stops_base (id : ExprId) (scope : Scope) (kind : ScopeKind) (head : PathHead)
    (properties : List String) (methods : List Method) :
    (env.base id scope kind head properties).Stops
      (Expr.Place ⟨id, .path head properties methods⟩) .error := by
  have hhead := (env.stops_head id scope kind head).mono (Q := Expr.Place
    ⟨id, .path head properties methods⟩) fun _ h => .head h
  refine hhead.bind rfl fun start => ?_
  cases start with
  | none => exact stops_pure
  | some start =>
    cases start with
    | object o =>
      refine stops_lift_bind ?_
      split
      · exact stops_pure
      · next position hwalk =>
        exact stops_propertyError (.property (env.model.lt_of_walk hwalk))
    | terminal type =>
      dsimp only
      split
      · exact stops_pure
      · next hne =>
        rw [List.isEmpty_iff] at hne
        exact stops_propertyError (.property (List.length_pos_iff.mpr hne))

theorem stops_simpleResult {id : ExprId} {index : Nat} (h : P ⟨.expr id, .methods, some index⟩)
    (method : SimpleMethod) (type : Ty) : (simpleResult id index method type).Stops P .error := by
  cases method <;>
    · rw [simpleResult]
      split
      · exact stops_pure
      · exact stops_failAt h

theorem stops_lambdaScope {id : ExprId} {index : Nat} (h : P ⟨.expr id, .methods, some index⟩)
    (method : ParametricMethod) (binder : String) (type : Ty) (scope : Scope) :
    (lambdaScope id index method binder type scope).Stops P none := by
  unfold lambdaScope
  split
  · exact stops_refuseAt h
  · split
    · exact stops_pure
    · exact stops_refuseAt h

theorem stops_lambdaResult {id : ExprId} {index : Nat} (h : P ⟨.expr id, .methods, some index⟩)
    (method : ParametricMethod) (type body : Ty) :
    (lambdaResult id index method type body).Stops P .error := by
  unfold lambdaResult
  split
  · exact stops_pure
  · split
    · exact stops_failAt h
    · cases method <;> exact stops_pure

/-! ### Operators -/

theorem findings_expectBoolean (id : ExprId) (side : Feature) (type : Ty) :
    (env.expectBoolean id side type).findings =
      if env.compatible type .boolean then [] else [⟨.notBoolean type, .expr id, side, none⟩] := by
  unfold expectBoolean
  split <;> rfl

theorem findings_expectNumeric_eq (id : ExprId) (side : Feature) (type : Ty) :
    (expectNumeric id side type).findings =
      if type.isError || type.isNumeric then []
      else [⟨.notNumeric type, .expr id, side, none⟩] := by
  unfold expectNumeric
  cases type.isError <;> cases type.isNumeric <;> rfl

theorem findings_booleanResult (id : ExprId) (left right : Ty) :
    (env.booleanResult id left right).findings =
      (env.expectBoolean id .left left).findings ++
        (env.expectBoolean id .right right).findings := by
  simp [booleanResult]

theorem findings_arithmeticResult (id : ExprId) (left right : Ty) :
    (arithmeticResult id left right).findings =
      (expectNumeric id .left left).findings ++ (expectNumeric id .right right).findings := by
  simp [arithmeticResult]

/-- Two checks of one report each mark different features. -/
theorem marks_sides {α : Type} {c : Check α} {id : ExprId} {p q : Problem} {a b : Bool}
    (hl : P ⟨.expr id, .left, none⟩) (hr : P ⟨.expr id, .right, none⟩)
    (h : c.findings = (if a then [] else [⟨p, .expr id, .left, none⟩]) ++
      if b then [] else [⟨q, .expr id, .right, none⟩]) : c.Marks P := by
  constructor
  · rw [h]
    cases a <;> cases b <;> simp [hl, hr]
  · rw [h]
    cases a <;> cases b <;> simp

theorem marks_binaryResult {id : ExprId} {op : BinaryOp} {left right : Expr} (l r : Ty) :
    (env.binaryResult id l r op).Marks (Expr.Place ⟨id, .binary op left right⟩) := by
  have harith : (arithmeticResult id l r).Marks (Expr.Place ⟨id, .binary op left right⟩) := by
    refine marks_sides .left .right (p := .notNumeric l) (q := .notNumeric r)
      (a := l.isError || l.isNumeric) (b := r.isError || r.isNumeric) ?_
    rw [findings_arithmeticResult, findings_expectNumeric_eq, findings_expectNumeric_eq]
  cases op with
  | boolean op =>
    refine marks_sides .left .right (p := .notBoolean l) (q := .notBoolean r)
      (a := env.compatible l .boolean) (b := env.compatible r .boolean) ?_
    rw [binaryResult, findings_booleanResult, findings_expectBoolean, findings_expectBoolean]
  | comparison op =>
    have hstops : (env.comparisonResult id l r).Stops (Expr.Place ⟨id, .binary (.comparison op)
        left right⟩) .error := by
      unfold comparisonResult
      split
      · exact stops_pure
      · split
        · exact stops_pure
        · exact stops_fail .operator
    exact hstops.marks
  | addition op => exact harith
  | multiplication op => exact harith

theorem marks_negationResult {id : ExprId} {operand : Expr} (type : Ty) :
    (env.negationResult id type).Marks (Expr.Place ⟨id, .negation operand⟩) := by
  have hstops : (env.expectBoolean id .operand type).Stops
      (Expr.Place ⟨id, .negation operand⟩) false := by
    unfold expectBoolean
    split
    · exact stops_pure
    · exact Or.inr ⟨_, rfl, .negation, rfl⟩
  refine hstops.marks.of_findings_eq ?_
  simp [negationResult]

theorem stops_signedResult {id : ExprId} (h : P ⟨.expr id, .operand, none⟩) (type : Ty) :
    (signedResult id type).Stops P .error := by
  unfold signedResult
  split
  · exact stops_pure
  · exact stops_fail h

/-! ### Ternaries and final expressions -/

theorem stops_conditionHolds {id : ExprId} (h : P ⟨.expr id, .condition, none⟩) (type : Ty) :
    (conditionHolds id type).Stops P false := by
  unfold conditionHolds
  split
  · exact stops_pure
  · split
    · exact stops_pure
    · exact Or.inr ⟨_, rfl, h, rfl⟩

theorem marks_ternaryResult {id : ExprId} (ht : P ⟨.expr id, .thenValue, none⟩)
    (he : P ⟨.expr id, .elseValue, none⟩) (thenType elseType : Ty) :
    (env.ternaryResult id thenType elseType).Marks P := by
  unfold ternaryResult
  split
  · exact Check.marks_of_findings_nil rfl
  · cases env.policy with
    | boolean =>
      dsimp only
      cases thenType.isBoolean <;> cases elseType.isBoolean
      · exact ⟨by simp [ht, he], by simp⟩
      · exact ⟨by simp [ht], by simp⟩
      · exact ⟨by simp [he], by simp⟩
      · exact Check.marks_of_findings_nil rfl
    | matching =>
      dsimp only
      split
      · exact (stops_fail he).marks
      · exact Check.marks_of_findings_nil rfl

/-- The chains of a `final(…)` are marked in their order, each once. -/
theorem places_checkChains (id : ExprId) (root : ObjectId) (index : Nat)
    (chains : List (List String)) :
    ∃ positions : List Nat, positions.Sublist (List.range' index chains.length) ∧
      (env.checkChains id root index chains).findings.map (·.location) =
        positions.map fun i => ⟨.expr id, .finalElements, some i⟩ := by
  induction chains generalizing index with
  | nil => exact ⟨[], List.nil_sublist _, rfl⟩
  | cons chain chains ih =>
    obtain ⟨positions, hsub, heq⟩ := ih (index + 1)
    rw [List.length_cons, List.range'_succ]
    rw [checkChains, Check.findings_bind, Check.findings_lift, List.nil_append]
    cases hoffending : (env.offendingPosition root chain).value with
    | none =>
      refine ⟨positions, hsub.cons _, ?_⟩
      simpa [hoffending] using heq
    | some position =>
      refine ⟨index :: positions, hsub.cons_cons _, ?_⟩
      simpa [hoffending] using heq

theorem marks_checkChains (id : ExprId) (root : ObjectId) (chains : List (List String)) :
    (env.checkChains id root 0 chains).Marks (Expr.Place ⟨id, .final chains⟩) := by
  obtain ⟨positions, hsub, heq⟩ := env.places_checkChains id root 0 chains
  constructor
  · intro f hf
    have hmem := List.mem_map_of_mem (f := Finding.location) hf
    rw [heq] at hmem
    obtain ⟨i, hi, hl⟩ := List.mem_map.mp hmem
    have hlt := List.mem_range'_1.mp (hsub.subset hi)
    rw [← hl]
    exact .chain (by omega)
  · rw [heq]
    refine List.Nodup.map ?_ (hsub.nodup List.nodup_range')
    intro i j h
    simpa using h

theorem marks_finalResult (id : ExprId) (kind : ScopeKind) (chains : List (List String)) :
    (env.finalResult id kind chains).Marks (Expr.Place ⟨id, .final chains⟩) := by
  unfold finalResult
  split
  · exact (stops_fail .finalElements).marks
  · have hroot : (env.root id .finalElements).Stops (Expr.Place ⟨id, .final chains⟩) none :=
      env.stops_root .finalElements
    refine hroot.bind_marks rfl fun root hsome => ?_
    cases root with
    | none => exact absurd rfl hsome
    | some root =>
      refine (env.marks_checkChains id root chains).of_findings_eq ?_
      simp

end Env

end DomainModel
