import DomainModel.Proofs.Nodes
import DomainModel.Proofs.Typing.Suppression

/-! # Variables of type `error`

A variable has the type `error` if its declaration was reported. Where it is used that is not
reported again: give a variable the type `error`, and an expression has the findings it had before,
or fewer of them (`Env.infer_retype`).

There is one exception. The arguments of a query are compared with the declared parameters for
equality, and `error` equals no declared type, so a variable that is passed to a query is reported
there once more (`Env.not_sublist_infer_retype`).

The proof compares two runs. `c'.Quieter stop c` says that `c'` finds at most what `c` finds and has
the value of `c`, or else the value `stop`. -/

namespace DomainModel

/-- The names that a form passes to a query. -/
def Form.arguments : Form → List String
  | .path (.query _ params) _ _ => params
  | _ => []

/-! ### Scopes -/

/-- The scope in which the variable `x` has the type `error`. -/
def Scope.retype (x : String) : Scope → Scope
  | root bindings => root (bindings.map fun b => (b.1, if b.1 == x then .error else b.2))
  | child parent bound type => child (parent.retype x) bound (if bound == x then .error else type)

/-- The scopes differ at most in `x`, which has the type `error` in the first if they do. -/
structure Scope.Fails (x : String) (s' s : Scope) : Prop where
  other : ∀ name, name ≠ x → s'.lookup name = s.lookup name
  failed : s'.lookup x = s.lookup x ∨ (s.lookup x).isSome ∧ s'.lookup x = some .error

namespace Scope

theorem lookup_retype (x : String) (s : Scope) (name : String) :
    (s.retype x).lookup name = (s.lookup name).map fun t => if name == x then .error else t := by
  induction s with
  | root bindings =>
    simp only [retype, lookup, ← List.map_reverse, List.find?_map, Option.map_map]
    cases hfind : bindings.reverse.find? (·.1 == name) with
    | none => simpa [Function.comp_def] using hfind
    | some b =>
      have hname : b.1 = name := by simpa using List.find?_some hfind
      simp [Function.comp_def, hfind, hname]
  | child parent bound type ih =>
    rw [retype, lookup, lookup, ih]
    split
    · next h =>
      rw [beq_iff_eq] at h
      rw [h]
      rfl
    · rfl

theorem fails_retype (x : String) (s : Scope) : (s.retype x).Fails x s := by
  constructor
  · intro name hname
    rw [lookup_retype]
    simp [hname]
  · rw [lookup_retype]
    cases s.lookup x with
    | none => exact Or.inl rfl
    | some t => exact Or.inr ⟨rfl, by simp⟩

variable {x : String} {s s' : Scope}

theorem Fails.child (h : s'.Fails x s) (bound : String) (type : Ty) :
    (child s' bound type).Fails x (child s bound type) := by
  constructor
  · intro name hname
    rw [lookup, lookup, h.other name hname]
  · rw [lookup, lookup]
    by_cases hbound : (bound == x) = true
    · rw [if_pos hbound, if_pos hbound]
      exact Or.inl rfl
    · rw [if_neg hbound, if_neg hbound]
      exact h.failed

/-- The same names are declared. -/
theorem Fails.isSome_lookup (h : s'.Fails x s) (name : String) :
    (s'.lookup name).isSome = (s.lookup name).isSome := by
  by_cases hname : name = x
  · rw [hname]
    rcases h.failed with heq | ⟨hsome, heq⟩
    · rw [heq]
    · rw [heq, hsome]
      rfl
  · rw [h.other name hname]

end Scope

/-! ### Two runs of a check -/

theorem Lookup.find?_congr {α : Type} {p q : α → Lookup Bool} {as : List α}
    (h : ∀ a ∈ as, p a = q a) : find? p as = find? q as := by
  induction as with
  | nil => rfl
  | cons a as ih =>
    have hrest := ih fun b hb => h b (List.mem_cons_of_mem a hb)
    rw [find?, find?, h a List.mem_cons_self, hrest]

/-- The first check finds at most what the second finds, and has its value or the value `stop`. -/
structure Check.Quieter {α : Type} (stop : α) (c' c : Check α) : Prop where
  value : c'.value = c.value ∨ c'.value = stop
  findings : c'.findings.Sublist c.findings

namespace Check

variable {α β : Type}

theorem Quieter.refl (stop : α) (c : Check α) : c.Quieter stop c :=
  ⟨Or.inl rfl, List.Sublist.refl _⟩

/-- Silence is the least that can be found. -/
theorem quieter_pure (stop : α) (c : Check α) : (pure stop : Check α).Quieter stop c :=
  ⟨Or.inr rfl, List.nil_sublist _⟩

theorem Quieter.bind {c' c : Check α} {f' f : α → Check β} {stop : α} {stop' : β}
    (h : c'.Quieter stop c) (hsame : ∀ a, (f' a).Quieter stop' (f a))
    (hstop : ∀ a, (f' stop).Quieter stop' (f a)) : (c' >>= f').Quieter stop' (c >>= f) := by
  have hrest : (f' c'.value).Quieter stop' (f c.value) := by
    rcases h.value with hv | hv
    · rw [hv]
      exact hsame _
    · rw [hv]
      exact hstop _
  exact ⟨hrest.value, h.findings.append hrest.findings⟩

/-- A check in front of both. -/
theorem Quieter.behind {c : Check α} {f' f : α → Check β} {stop : β}
    (h : (f' c.value).Quieter stop (f c.value)) : (c >>= f').Quieter stop (c >>= f) :=
  ⟨h.value, (List.Sublist.refl _).append h.findings⟩

theorem Suppressed.quieter {c' : Check Ty} (h : c'.Suppressed) (c : Check Ty) :
    c'.Quieter .error c := by
  constructor
  · exact Or.inr h.value_eq
  · rw [h.findings_eq]
    exact List.nil_sublist _

end Check

open Check (Quieter quieter_pure)

namespace Env

variable (env : Env) {x : String} {s s' : Scope}

/-! ### Heads -/

theorem mismatchedParam_congr {params : List String}
    (h : ∀ param ∈ params, s'.lookup param = s.lookup param) (declared : List Parameter) :
    env.mismatchedParam s' params declared = env.mismatchedParam s params declared := by
  unfold mismatchedParam
  refine congrArg (· >>= _) (Lookup.find?_congr fun p hp => ?_)
  obtain ⟨⟨param, parameter⟩, i⟩ := p
  have hparam := (List.of_mem_zip (List.fst_mem_of_mem_zipIdx hp)).1
  simp only [h param hparam]

theorem undeclaredParam_congr (hs : s'.Fails x s) (params : List String) :
    undeclaredParam s' params = undeclaredParam s params := by
  unfold undeclaredParam Scope.isDeclared
  simp only [hs.isSome_lookup]

theorem query_congr (hs : s'.Fails x s) {params : List String} (hx : x ∉ params) (id : ExprId)
    (name : String) : env.query id name params s' = env.query id name params s := by
  have hlookup : ∀ param ∈ params, s'.lookup param = s.lookup param := by
    intro param hparam
    refine hs.other param ?_
    rintro rfl
    exact hx hparam
  unfold query
  simp only [undeclaredParam_congr hs, env.mismatchedParam_congr hlookup]

theorem quieter_head (hs : s'.Fails x s) (id : ExprId) (kind : ScopeKind) {head : PathHead}
    {properties : List String} {methods : List Method}
    (hx : x ∉ (Form.path head properties methods).arguments) :
    (env.head id s' kind head).Quieter none (env.head id s kind head) := by
  cases head with
  | root => exact .refl ..
  | query operation params =>
    have hparams : x ∉ params := hx
    rw [Env.head, Env.head, env.query_congr hs hparams]
    exact .refl ..
  | «variable» name =>
    rw [Env.head, Env.head]
    by_cases hkind : kind = .intraInvariant
    · rw [if_pos hkind, if_pos hkind]
      exact .refl ..
    · rw [if_neg hkind, if_neg hkind]
      by_cases hname : name = x
      · rw [hname]
        rcases hs.failed with heq | ⟨_, heq⟩
        · rw [heq]
          exact .refl ..
        · rw [heq]
          exact quieter_pure ..
      · rw [hs.other name hname]
        exact .refl ..

theorem quieter_base (hs : s'.Fails x s) (id : ExprId) (kind : ScopeKind) {head : PathHead}
    {properties : List String} {methods : List Method}
    (hx : x ∉ (Form.path head properties methods).arguments) :
    (env.base id s' kind head properties).Quieter .error (env.base id s kind head properties) :=
  (env.quieter_head hs id kind hx).bind (fun _ => .refl ..) fun _ => quieter_pure ..

/-! ### Operators -/

theorem sublist_complaints (id : ExprId) (op : BinaryOp) (left right : Ty) :
    (env.complaint id op .left left ++ env.complaint id op .right right).Sublist
      (env.binaryResult id left right op).findings := by
  cases op with
  | boolean op =>
    rw [complaint_boolean, complaint_boolean, ← findings_booleanResult]
    exact List.Sublist.refl _
  | comparison op =>
    rw [complaint_comparison, complaint_comparison]
    exact List.nil_sublist _
  | addition op | multiplication op =>
    rw [env.complaint_numeric id .left left rfl rfl, env.complaint_numeric id .right right rfl rfl,
      ← findings_arithmeticResult]
    exact List.Sublist.refl _

theorem sublist_complaint {type' type : Ty} (h : type' = type ∨ type' = .error) (id : ExprId)
    (op : BinaryOp) (side : Feature) :
    (env.complaint id op side type').Sublist (env.complaint id op side type) := by
  rcases h with rfl | rfl
  · exact List.Sublist.refl _
  · rw [complaint_error]
    exact List.nil_sublist _

theorem quieter_binaryResult (id : ExprId) (op : BinaryOp) {left' left right' right : Ty}
    (hl : left' = left ∨ left' = .error) (hr : right' = right ∨ right' = .error) :
    (env.binaryResult id left' right' op).Quieter .error (env.binaryResult id left right op) := by
  by_cases herror : left' = .error ∨ right' = .error
  · constructor
    · exact Or.inr (env.value_binaryResult_of_error id op herror)
    · rw [env.findings_binaryResult_of_error id op herror]
      refine List.Sublist.trans ?_ (env.sublist_complaints id op left right)
      exact (env.sublist_complaint hl id op .left).append (env.sublist_complaint hr id op .right)
  · have hleft : left' = left := hl.resolve_right fun h => herror (Or.inl h)
    have hright : right' = right := hr.resolve_right fun h => herror (Or.inr h)
    rw [hleft, hright]
    exact .refl ..

theorem quieter_ternaryResult (id : ExprId) {then' thenType else' elseType : Ty}
    (ht : then' = thenType ∨ then' = .error) (he : else' = elseType ∨ else' = .error) :
    (env.ternaryResult id then' else').Quieter .error
      (env.ternaryResult id thenType elseType) := by
  by_cases herror : then' = .error ∨ else' = .error
  · exact (env.suppressed_ternaryResult id herror).quieter _
  · have hthen : then' = thenType := ht.resolve_right fun h => herror (Or.inl h)
    have helse : else' = elseType := he.resolve_right fun h => herror (Or.inr h)
    rw [hthen, helse]
    exact .refl ..

/-! ### Methods -/

/-- A lambda is entered in both scopes, or refused for the same reason. -/
theorem lambdaScope_fails (hs : s'.Fails x s) (id : ExprId) (index : Nat)
    (method : ParametricMethod) (binder : String) (type : Ty) :
    (lambdaScope id index method binder type s' = lambdaScope id index method binder type s ∧
        (lambdaScope id index method binder type s).value = none) ∨
      (lambdaScope id index method binder type s' =
          pure (some (.child s' binder type.unwrapCollection)) ∧
        lambdaScope id index method binder type s =
          pure (some (.child s binder type.unwrapCollection))) := by
  have hsome := hs.isSome_lookup binder
  unfold lambdaScope Scope.bind
  by_cases hcollection : (!type.isCollection) = true
  · rw [if_pos hcollection, if_pos hcollection]
    exact Or.inl ⟨rfl, rfl⟩
  · rw [if_neg hcollection, if_neg hcollection]
    cases h' : s'.lookup binder <;> cases h : s.lookup binder <;> rw [h, h'] at hsome
    · exact Or.inr ⟨rfl, rfl⟩
    · cases hsome
    · cases hsome
    · exact Or.inl ⟨rfl, rfl⟩

/-- The type of a step is kept, and so is that of the rest, or the chain ends in silence. -/
theorem quieter_unless_error {c' c : Check Ty} (hc : c'.Quieter .error c) {f' f : Ty → Check Ty}
    (hf : ∀ type, (f' type).Quieter .error (f type)) :
    (c' >>= fun type => if type.isError then pure .error else f' type).Quieter .error
      (c >>= fun type => if type.isError then pure .error else f type) := by
  refine hc.bind (fun type => ?_) fun type => quieter_pure ..
  split
  · exact .refl ..
  · exact hf type

/-- The expression has the type it had or fails, and finds no more, wherever `x` fails. -/
def QuietWith (x : String) (e : Expr) : Prop :=
  ∀ (s' s : Scope) (kind : ScopeKind), s'.Fails x s →
    (env.infer s' kind e).Quieter .error (env.infer s kind e)

theorem quieter_applyMethods (id : ExprId) (hs : s'.Fails x s) (index : Nat) (type : Ty)
    {methods : List Method} (hbodies : ∀ c ∈ Expr.bodies methods, env.QuietWith x c) :
    (env.applyMethods id s' index type methods).Quieter .error
      (env.applyMethods id s index type methods) := by
  induction methods generalizing index type with
  | nil => exact .refl ..
  | cons first rest ih =>
    cases first with
    | simple method =>
      rw [applyMethods, applyMethods]
      exact quieter_unless_error (.refl ..) fun next => ih (index + 1) next hbodies
    | parametric method binder body =>
      obtain ⟨hbody, hrest⟩ := List.forall_mem_cons.mp hbodies
      rw [applyMethods, applyMethods]
      rcases lambdaScope_fails hs id index method binder type with ⟨heq, hnone⟩ | ⟨h', h⟩
      · rw [heq]
        refine .behind ?_
        rw [hnone]
        exact .refl ..
      · rw [h', h, pure_bind, pure_bind]
        have hinfer := hbody _ _ .methodLocal (hs.child binder type.unwrapCollection)
        refine hinfer.bind (fun bodyType => ?_) fun bodyType => ?_
        · exact quieter_unless_error (.refl ..) fun next => ih (index + 1) next hrest
        · exact quieter_pure ..

/-! ### The tree -/

/-- **An expression is no louder where a variable fails** that it passes to no query. -/
theorem quietWith (e : Expr) (h : ∀ n ∈ e.nodes, x ∉ n.form.arguments) : env.QuietWith x e := by
  induction e using Expr.induction_on_children with
  | h e ih =>
    have hparts : ∀ c ∈ e.children, env.QuietWith x c := by
      intro c hc
      exact ih c hc fun n hn => h n (Expr.mem_nodes_of_child hc hn)
    have hself := h e e.mem_nodes_self
    obtain ⟨id, form⟩ := e
    intro s' s kind hs
    cases form with
    | binary op left right =>
      have hl := hparts left (by simp [Expr.children]) s' s kind hs
      have hr := hparts right (by simp [Expr.children]) s' s kind hs
      have hresult := env.quieter_binaryResult id op hl.value hr.value
      rw [infer, infer]
      exact ⟨hresult.value, hl.findings.append (hr.findings.append hresult.findings)⟩
    | lone op operand | parenthesized operand =>
      rw [infer, infer]
      exact hparts operand List.mem_cons_self s' s kind hs
    | negation operand =>
      have ho := hparts operand List.mem_cons_self s' s kind hs
      rw [infer, infer]
      exact ho.bind (fun _ => .refl ..) fun _ => (env.suppressed_negationResult id).quieter _
    | signed op operand =>
      have ho := hparts operand List.mem_cons_self s' s kind hs
      rw [infer, infer]
      exact ho.bind (fun _ => .refl ..) fun _ => quieter_pure ..
    | ternary condition thenValue elseValue =>
      have hc := hparts condition (by simp [Expr.children]) s' s kind hs
      have ht := hparts thenValue (by simp [Expr.children]) s' s kind hs
      have he := hparts elseValue (by simp [Expr.children]) s' s kind hs
      have hresult := env.quieter_ternaryResult id ht.value he.value
      rw [infer, infer]
      refine hc.bind (fun type => ?_) fun type => quieter_pure ..
      refine .behind ?_
      split
      · exact ⟨hresult.value, ht.findings.append (he.findings.append hresult.findings)⟩
      · exact .refl ..
    | path head properties methods =>
      rw [infer, infer]
      refine quieter_unless_error (env.quieter_base hs id kind hself) fun type => ?_
      exact env.quieter_applyMethods id hs 0 type hparts
    | _ =>
      rw [infer, infer]
      exact .refl ..

/-- **Where a variable has failed, nothing new is reported,** unless it is passed to a query: what
is found once `x` has the type `error` was found before, and the type is kept or becomes `error`. -/
theorem infer_retype (scope : Scope) (kind : ScopeKind) (e : Expr) (x : String)
    (unqueried : ∀ n ∈ e.nodes, x ∉ n.form.arguments) :
    (env.infer (scope.retype x) kind e).findings.Sublist (env.infer scope kind e).findings ∧
      ((env.infer (scope.retype x) kind e).value = (env.infer scope kind e).value ∨
        (env.infer (scope.retype x) kind e).value = .error) := by
  have hquiet := env.quietWith e unqueried _ _ kind (scope.fails_retype x)
  exact ⟨hquiet.findings, hquiet.value⟩

/-- The limit of the lines fails: the comparison keeps silent about it, and a misspelt price is
still reported. -/
theorem infer_retype_linesBelow :
    let env := (forAggregate .orders (some ⟨0⟩) .boolean).value
    let scope := Scope.root [("limit", .optional .long)]
    (∀ n ∈ (Model.linesBelow "prize").nodes, "limit" ∉ n.form.arguments) ∧
      (env.infer (scope.retype "limit") .constructorAssignment
        (Model.linesBelow "prize")).findings.Sublist
          (env.infer scope .constructorAssignment (Model.linesBelow "prize")).findings := by
  intro env scope
  have unqueried : ∀ n ∈ (Model.linesBelow "prize").nodes, "limit" ∉ n.form.arguments := by
    decide
  exact ⟨unqueried, (env.infer_retype scope .constructorAssignment _ "limit" unqueried).1⟩

end Env

/-- Orders that can be looked up by their number. -/
def Model.numberedOrders : Model :=
  { orders with
    objects :=
      [⟨"Order", ⟨0⟩, .entity ⟨none, none⟩, true, [⟨0⟩], [⟨0⟩], none,
          some ⟨"Orders", [⟨"byNumber", [⟨"number", ⟨.none, .primitive "Integer"⟩⟩],
            some ⟨.none, .domainObject (some ⟨0⟩)⟩⟩]⟩, []⟩,
        ⟨"Line", ⟨0⟩, .entity ⟨none, none⟩, false, [⟨1⟩], [], none, none, []⟩] }

/-- **A variable that has failed is reported again where it is passed to a query.** -/
theorem Env.not_sublist_infer_retype :
    let env := (forAggregate .numberedOrders (some ⟨0⟩) .boolean).value
    let scope := Scope.root [("x", .integer)]
    let e := Expr.query "byNumber" ["x"] []
    ¬ (env.infer (scope.retype "x") .interInvariant e).findings.Sublist
      (env.infer scope .interInvariant e).findings := by
  decide

end DomainModel
