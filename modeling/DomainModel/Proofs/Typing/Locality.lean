import DomainModel.Proofs.Clean.Navigation
import DomainModel.Proofs.Typing.Agreement
import DomainModel.Proofs.Typing.Scoping
import DomainModel.Proofs.Typing.Visits

/-! # Scopes matter by the names that occur

An expression asks its scope for the names that occur in it and for nothing else. So it makes no
difference what other names the scope declares, nor how its bindings are spread over a chain of
scopes (`Model.inferType_names`). Inside, each part is evaluated in the scope of the whole, the body
of a lambda with the variable of that lambda and of no other (`Env.enters_of_visits`). -/

namespace DomainModel

namespace Scope

/-! ### Other scopes with the same variables -/

/-- The bindings of a chain of scopes, from the outside to the inside. -/
def bindings : Scope → List (String × Ty)
  | root bindings => bindings
  | child parent name type => parent.bindings ++ [(name, type)]

/-- The bindings of a chain of scopes in one scope. -/
def flatten (s : Scope) : Scope := root s.bindings

/-- The scope with more bindings at the root of its chain. -/
def declaring (added : List (String × Ty)) : Scope → Scope
  | root bindings => root (bindings ++ added)
  | child parent name type => child (parent.declaring added) name type

theorem lookup_flatten (s : Scope) (name : String) : s.flatten.lookup name = s.lookup name := by
  induction s with
  | root bindings => rfl
  | child parent bound type ih =>
    rw [flatten, bindings, lookup, lookup, List.reverse_append, ← ih, flatten, lookup]
    cases h : bound == name <;> simp [h]

theorem lookup_declaring {added : List (String × Ty)} {name : String}
    (h : ∀ b ∈ added, b.1 ≠ name) (s : Scope) :
    (s.declaring added).lookup name = s.lookup name := by
  induction s with
  | root bindings =>
    have hnone : added.reverse.find? (·.1 == name) = none := by
      simpa using fun a b hb => h (a, b) hb
    rw [declaring, lookup, lookup, List.reverse_append, List.find?_append, hnone, Option.none_or]
  | child parent bound type ih => rw [declaring, lookup, lookup, ih]

theorem lookup_child_of_ne {s : Scope} {bound name : String} (h : bound ≠ name) (type : Ty) :
    (child s bound type).lookup name = s.lookup name := by
  rw [lookup, beq_false_of_ne h]
  rfl

/-- Among root bindings the only one of a name gives its type. -/
theorem lookup_root_of_unique {bindings : List (String × Ty)} {name : String} {type : Ty}
    (hmem : (name, type) ∈ bindings) (hunique : ∀ b ∈ bindings, b.1 = name → b.2 = type) :
    (root bindings).lookup name = some type := by
  rw [lookup]
  cases hfind : bindings.reverse.find? (·.1 == name) with
  | none =>
    have hmiss := List.find?_eq_none.mp hfind (name, type) (List.mem_reverse.mpr hmem)
    simp at hmiss
  | some b =>
    have hb := List.mem_reverse.mp (List.mem_of_find?_eq_some hfind)
    rw [Option.map_some, hunique b hb (by simpa using List.find?_some hfind)]

/-- The order of root bindings makes no difference if their names are distinct. -/
theorem lookup_root_perm {bindings' bindings : List (String × Ty)} (h : bindings'.Perm bindings)
    (hnames : (bindings.map (·.1)).Nodup) (name : String) :
    (root bindings').lookup name = (root bindings).lookup name := by
  have hperm : bindings'.reverse.Perm bindings.reverse :=
    (bindings'.reverse_perm.trans h).trans bindings.reverse_perm.symm
  refine congrArg (Option.map _) (find?_perm_of_inj hperm (fun b hb c hc hname => ?_) name)
  exact List.inj_on_of_nodup_map hnames (List.mem_reverse.mp hb) (List.mem_reverse.mp hc) hname

end Scope

namespace Env

variable (env : Env) {scope : Scope} {kind : ScopeKind}

/-! ### The scopes of parts -/

theorem enters_of_methodVisits {id : ExprId} {index : Nat} {type : Ty} {methods : List Method}
    {v : Visit} (hv : v ∈ env.methodVisits id scope index type methods) :
    ∃ method binder, .parametric method binder v.part ∈ methods ∧
      scope.Enters kind (some binder) v.scope v.kind := by
  induction methods generalizing index type with
  | nil => cases hv
  | cons first rest ih =>
    have hrest : ∀ next : Ty,
        v ∈ (if next.isError then [] else env.methodVisits id scope (index + 1) next rest) →
          ∃ method binder, .parametric method binder v.part ∈ first :: rest ∧
            scope.Enters kind (some binder) v.scope v.kind := by
      intro next hv
      obtain ⟨method, binder, hmem, henters⟩ := ih (mem_unless_error hv).2
      exact ⟨method, binder, List.mem_cons_of_mem _ hmem, henters⟩
    cases first with
    | simple method => exact hrest _ hv
    | parametric method binder body =>
      rw [methodVisits] at hv
      split at hv
      · cases hv
      · next inner hinner =>
        rcases List.mem_cons.mp hv with rfl | hv
        · rw [(lambdaScope_eq_some hinner).2]
          exact ⟨method, binder, List.mem_cons_self, .lambda binder _⟩
        · exact hrest _ hv

/-- **A part is evaluated in the scope of the whole,** with the variable of its own lambda if it is
the body of one. -/
theorem enters_of_visits {e : Expr} {v : Visit} (hv : v ∈ env.visits scope kind e) :
    ∃ binder, e.Part binder v.part ∧ scope.Enters kind binder v.scope v.kind := by
  obtain ⟨id, form⟩ := e
  cases form with
  | binary op left right =>
    rcases List.mem_pair.mp hv with rfl | rfl
    · exact ⟨none, .left, .same⟩
    · exact ⟨none, .right, .same⟩
  | lone op operand =>
    rw [List.mem_singleton.mp hv]
    exact ⟨none, .lone, .same⟩
  | negation operand =>
    rw [List.mem_singleton.mp hv]
    exact ⟨none, .negation, .same⟩
  | signed op operand =>
    rw [List.mem_singleton.mp hv]
    exact ⟨none, .signed, .same⟩
  | parenthesized inner =>
    rw [List.mem_singleton.mp hv]
    exact ⟨none, .parenthesized, .same⟩
  | ternary condition thenValue elseValue =>
    rcases List.mem_cons.mp hv with rfl | hv
    · exact ⟨none, .condition, .same⟩
    · split at hv
      · rcases List.mem_pair.mp hv with rfl | rfl
        · exact ⟨none, .thenValue, .same⟩
        · exact ⟨none, .elseValue, .same⟩
      · cases hv
  | path head properties methods =>
    rw [visits] at hv
    obtain ⟨method, binder, hmem, henters⟩ := env.enters_of_methodVisits (mem_unless_error hv).2
    exact ⟨some binder, .body hmem, henters⟩
  | final | number | string | bool | null | now => cases hv

theorem lookup_of_methodVisits {id : ExprId} {index : Nat} {type : Ty} {methods : List Method}
    {v : Visit} (hv : v ∈ env.methodVisits id scope index type methods) {name : String}
    {known : Ty} (h : scope.lookup name = some known) : v.scope.lookup name = some known := by
  induction methods generalizing index type with
  | nil => cases hv
  | cons first rest ih =>
    cases first with
    | simple method => exact ih (mem_unless_error hv).2
    | parametric method binder body =>
      rw [methodVisits] at hv
      split at hv
      · cases hv
      · next inner hinner =>
        rcases List.mem_cons.mp hv with rfl | hv
        · obtain ⟨hnew, rfl⟩ := lambdaScope_eq_some hinner
          have hne : binder ≠ name := by
            rintro rfl
            rw [h] at hnew
            cases hnew
          exact (Scope.lookup_child_of_ne hne _).trans h
        · exact ih (mem_unless_error hv).2

/-- Inside an expression variables keep their types: a lambda takes a new name for its own. -/
theorem lookup_of_visits {e : Expr} {v : Visit} (hv : v ∈ env.visits scope kind e) {name : String}
    {known : Ty} (h : scope.lookup name = some known) : v.scope.lookup name = some known := by
  obtain ⟨binder, hpart, henters⟩ := env.enters_of_visits hv
  cases hpart with
  | body =>
    rw [visits] at hv
    exact env.lookup_of_methodVisits (mem_unless_error hv).2 h
  | _ =>
    obtain ⟨inner, innerKind, part⟩ := v
    cases henters
    exact h

/-- **What is found in an expression is found by the rule of one of its nodes,** in a scope in which
the variables around the expression have kept their types. -/
theorem mem_findings_infer {e : Expr} {f : Finding} (hf : f ∈ (env.infer scope kind e).findings) :
    ∃ n ∈ e.nodes, ∃ inner innerKind,
      (∀ name known, scope.lookup name = some known → inner.lookup name = some known) ∧
        f ∈ (env.rule inner innerKind n).findings := by
  induction e using Expr.induction_on_children generalizing scope kind with
  | h e ih =>
    rw [findings_infer, List.mem_append] at hf
    rcases hf with hf | hf
    · obtain ⟨v, hv, hf⟩ := List.mem_flatMap.mp hf
      have hpart := env.mem_children_of_visits hv
      obtain ⟨n, hn, inner, innerKind, hkeeps, hf⟩ := ih v.part hpart hf
      refine ⟨n, Expr.mem_nodes_of_child hpart hn, inner, innerKind, ?_, hf⟩
      exact fun name known h => hkeeps name known (env.lookup_of_visits hv h)
    · exact ⟨e, e.mem_nodes_self, scope, kind, fun _ _ h => h, hf⟩

end Env

namespace Model

/-- **Inference depends on the scope only through the names that occur.** In scopes that agree on
these names, of whatever depth and order of bindings, an expression has the same type and the same
findings. So it has in a scope that declares more names, if they do not occur in it, and in the
chain of scopes put into one. Each part of it that is evaluated adds what it would add alone, in the
scope of the whole with no variable but that of its own lambda. -/
theorem inferType_names (m : Model) (aggregate : Option AggregateId) (policy : TernaryPolicy)
    (kind : ScopeKind) (e : Expr) :
    let run := fun scope => m.inferType aggregate policy scope kind e
    let same := fun s' s => (run s').value = (run s).value ∧ (run s').findings = (run s).findings
    (∀ s' s, Scope.AgreesOn e.names s' s → same s' s) ∧
      (∀ s added, (∀ b ∈ added, b.1 ∉ e.names) → same (s.declaring added) s) ∧
      (∀ s name type, name ∉ e.names → same (.child s name type) s) ∧
      (∀ s, same s.flatten s) ∧
      ∀ s, let env := (Env.forAggregate m aggregate policy).value
        (run s).findings = env.found (env.visits s kind e) ++ (env.rule s kind e).findings ∧
          ∀ v ∈ env.visits s kind e,
            ∃ binder, e.Part binder v.part ∧ s.Enters kind binder v.scope v.kind := by
  intro run same
  have hagrees := Env.agrees_forAggregate (.refl m) aggregate policy
  have hsame : ∀ s' s, Scope.AgreesOn e.names s' s → same s' s := by
    intro s' s hs
    have hnumbers : Env.Renumbers id id := fun _ _ _ _ => rfl
    have hfollows := Env.follows_infer hnumbers hagrees e s' s kind hs
    rw [Expr.renumbered_id] at hfollows
    exact ⟨hfollows.value, hfollows.findings.trans (List.map_id _)⟩
  refine ⟨hsame, fun s added hadded => ?_, fun s name type hname => ?_, fun s => ?_, fun s => ?_⟩
  · refine hsame _ _ fun name hname => Scope.lookup_declaring (fun b hb heq => ?_) s
    exact hadded b hb (heq ▸ hname)
  · refine hsame _ _ fun other hother => Scope.lookup_child_of_ne (fun heq => ?_) type
    exact hname (heq ▸ hother)
  · exact hsame _ _ fun name _ => s.lookup_flatten name
  · exact ⟨Env.findings_infer _ s kind e, fun v hv => Env.enters_of_visits _ hv⟩

/-- The limit may be a parameter or the variable of a lambda around, among other variables. -/
theorem inferType_names_limit :
    let e := linesBelow "price"
    let run := fun scope => orders.inferType (some ⟨0⟩) .boolean scope .constructorAssignment e
    let limit := Scope.root [("limit", .optional .long)]
    let inner := (Scope.root [("rate", .float)]).child "limit" (.optional .long)
    Scope.AgreesOn e.names inner limit ∧ "rate" ∉ e.names ∧ (run limit).value = .boolean ∧
      (run inner).value = (run limit).value ∧ (run inner).findings = (run limit).findings ∧
      (run (limit.declaring [("rate", .float)])).value = (run limit).value ∧
      (run (limit.child "rate" .float)).value = (run limit).value ∧
      (run inner.flatten).value = (run inner).value := by
  intro e run limit inner
  have agree : Scope.AgreesOn e.names inner limit := by
    unfold Scope.AgreesOn
    decide
  have rate : "rate" ∉ e.names := by decide
  obtain ⟨hsame, hdeclaring, hchild, hflatten, -⟩ :=
    inferType_names orders (some ⟨0⟩) .boolean .constructorAssignment e
  obtain ⟨hvalue, hfindings⟩ := hsame inner limit agree
  have added : ∀ b ∈ [("rate", Ty.float)], b.1 ∉ e.names := by
    rwa [List.forall_mem_singleton]
  exact ⟨agree, rate, by decide, hvalue, hfindings, (hdeclaring limit _ added).1,
    (hchild limit "rate" .float rate).1, (hflatten inner).1⟩

end Model

end DomainModel
