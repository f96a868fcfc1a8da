import Mathlib.Data.List.Forall2
import DomainModel.Expr.Build
import DomainModel.Proofs.Totality.Links
import DomainModel.Proofs.Typing.Agreement

/-! # The names of lambda variables do not matter

A lambda binds its variable, so another name for it changes nothing but the problems that quote the
name (`Model.inferType_lambda_renamed`). Here the new name has to be as new as the old one: neither
is declared outside the lambda, and the new one does not occur in its body.

In the body all names are replaced alike, and `Env.follows_infer_renamed` compares the two runs. In
the rest of the path the old name may occur as well and keeps its meaning, so for the whole path the
two runs are compared finding by finding: `Check.Alike R c' c` says that the two checks have one
value, and that their findings correspond one by one. -/

namespace DomainModel

/-! ### One name in place of another -/

/-- The name `y` in place of `x`. -/
def replacing (x y name : String) : String := if name = x then y else name

theorem replacing_self (x y : String) : replacing x y x = y := if_pos rfl

theorem replacing_of_ne {x name : String} (h : name ≠ x) (y : String) :
    replacing x y name = name :=
  if_neg h

/-- A name that does not occur may stand for the innermost variable. -/
theorem Scope.renames_child {x y : String} {names : List String} (hfresh : y ∉ names) (s : Scope)
    (type : Ty) : Renames (replacing x y) names (child s y type) (child s x type) := by
  have hne : ∀ name ∈ names, name ≠ y := fun name hname h => hfresh (h ▸ hname)
  constructor
  · intro a ha b hb hab
    by_cases hax : a = x <;> by_cases hbx : b = x
    · rw [hax, hbx]
    · rw [hax, replacing_self, replacing_of_ne hbx] at hab
      exact absurd hab.symm (hne b hb)
    · rw [hbx, replacing_self, replacing_of_ne hax] at hab
      exact absurd hab (hne a ha)
    · rwa [replacing_of_ne hax, replacing_of_ne hbx] at hab
  · intro name hname
    by_cases h : name = x
    · rw [h, replacing_self, lookup, lookup, if_pos (beq_self_eq_true y),
        if_pos (beq_self_eq_true x)]
    · rw [replacing_of_ne h, lookup, lookup, beq_false_of_ne (hne name hname).symm,
        beq_false_of_ne (Ne.symm h)]

/-! ### Problems that quote a name -/

/-- A problem with another name is the same, or its message has another name in one place. -/
theorem Problem.message_renamed (p : Problem) (r : String → String) :
    p.renamed r = p ∨ ∃ before name after, p.message = before ++ name ++ after ∧
      (p.renamed r).message = before ++ r name ++ after := by
  cases p with
  | variableInInvariant name =>
    exact Or.inr ⟨"Aggregate invariant cannot contain var ", name, ".", rfl, rfl⟩
  | undeclaredTranslationAttribute name =>
    exact Or.inr ⟨"Attribute ", name, " is not declared in anti-corruption translation.", rfl, rfl⟩
  | undeclaredParameter name =>
    exact Or.inr ⟨"Constructor assigment head ", name, " not declared as parameter.", rfl, rfl⟩
  | undeclaredLocal name =>
    exact Or.inr ⟨"Method local variable ", name, " not declared.", rfl, rfl⟩
  | headNotObject name =>
    exact Or.inr ⟨"Path expresssion head ", name, " must be object.", rfl, rfl⟩
  | undeclaredQueryParam name => exact Or.inr ⟨"Query param ", name, " is not declared.", rfl, rfl⟩
  | queryParamType name =>
    exact Or.inr ⟨"Query param ", name,
      " type does not match repository operation parameter type.", rfl, rfl⟩
  | variableRebound name =>
    exact Or.inr ⟨"Variable ", name, " already declared in scope.", rfl, rfl⟩
  | _ => exact Or.inl rfl

theorem Problem.severity_renamed (p : Problem) (r : String → String) :
    (p.renamed r).severity = p.severity := by
  cases p with
  | _ => rfl

theorem Problem.suggestion_renamed (p : Problem) (r : String → String) :
    (p.renamed r).suggestion = p.suggestion := by
  cases p with
  | _ => rfl

/-- The finding with another name in its problem. -/
def Finding.renamed (r : String → String) (f : Finding) : Finding :=
  ⟨f.problem.renamed r, f.location⟩

/-- The finding is the same, or quotes `y` in place of `x`. -/
def Finding.SameBut (x y : String) (f' f : Finding) : Prop :=
  f' = f ∨ f' = f.renamed (replacing x y)

/-- The diagnostic is of the same kind at the same place, and its message is the same or has `y` in
one place where the other has `x`. -/
structure Diagnostic.SameBut (x y : String) (d' d : Diagnostic) : Prop where
  severity : d'.severity = d.severity
  location : d'.location = d.location
  suggestion : d'.suggestion = d.suggestion
  message : d'.message = d.message ∨ ∃ before after,
    d.message = before ++ x ++ after ∧ d'.message = before ++ y ++ after

theorem Finding.SameBut.diagnostic {x y : String} {f' f : Finding} (h : f'.SameBut x y f) :
    f'.diagnostic.SameBut x y f.diagnostic := by
  rcases h with rfl | rfl
  · exact ⟨rfl, rfl, rfl, Or.inl rfl⟩
  · refine ⟨f.problem.severity_renamed _, rfl, f.problem.suggestion_renamed _, ?_⟩
    simp only [Finding.diagnostic, Finding.renamed]
    rcases f.problem.message_renamed (replacing x y) with h | ⟨before, name, after, h, h'⟩
    · exact Or.inl (by rw [h])
    · by_cases hname : name = x
      · subst hname
        rw [replacing_self] at h'
        exact Or.inr ⟨before, after, h, h'⟩
      · rw [replacing_of_ne hname, ← h] at h'
        exact Or.inl h'

/-! ### Two runs with corresponding findings -/

namespace Check

variable {α β : Type} {R : Finding → Finding → Prop}

/-- The checks have one value, and their findings correspond one by one. -/
structure Alike (R : Finding → Finding → Prop) (c' c : Check α) : Prop where
  value : c'.value = c.value
  findings : List.Forall₂ R c'.findings c.findings

theorem Alike.refl (hR : ∀ f, R f f) (c : Check α) : Alike R c c :=
  ⟨rfl, List.forall₂_same.mpr fun f _ => hR f⟩

theorem Alike.bind {c' c : Check α} {f' f : α → Check β} (hc : Alike R c' c)
    (hf : ∀ a, Alike R (f' a) (f a)) : Alike R (c' >>= f') (c >>= f) := by
  constructor
  · rw [value_bind, value_bind, hc.value, (hf c.value).value]
  · rw [findings_bind, findings_bind, hc.value]
    exact List.rel_append hc.findings (hf c.value).findings

/-- Findings that are translated correspond to the originals. -/
theorem Follows.alike {g : Finding → Finding} {c' c : Check α} (h : c'.Follows g c)
    (hR : ∀ f, R (g f) f) : Alike R c' c := by
  refine ⟨h.value, ?_⟩
  rw [h.findings, List.forall₂_map_left_iff]
  exact List.forall₂_same.mpr fun f _ => hR f

end Check

open Check (Alike)

namespace Env

variable (env : Env) {scope : Scope} {x y : String}

/-- The body of the lambda. -/
theorem alike_body {body : Expr} (hfresh : y ∉ body.names) (type : Ty) :
    Alike (Finding.SameBut x y)
      (env.infer (.child scope y type) .methodLocal (body.renamed (replacing x y)))
      (env.infer (.child scope x type) .methodLocal body) := by
  have hnames : Relabels id (replacing x y) (Finding.renamed (replacing x y)) := fun _ _ _ _ => rfl
  have hfollows := follows_infer_renamed hnames (.refl env) body _ _ .methodLocal
    (Scope.renames_child hfresh scope type)
  rw [Expr.renumbered_id] at hfollows
  exact hfollows.alike fun _ => Or.inr rfl

/-- A chain of methods that starts with the lambda. -/
theorem alike_lambda (hx : scope.lookup x = none) (hy : scope.lookup y = none) (id : ExprId)
    (index : Nat) (type : Ty) (method : ParametricMethod) {body : Expr} (hfresh : y ∉ body.names)
    (after : List Method) :
    Alike (Finding.SameBut x y)
      (env.applyMethods id scope index type
        (.parametric method y (body.renamed (replacing x y)) :: after))
      (env.applyMethods id scope index type (.parametric method x body :: after)) := by
  have hrefl : ∀ f : Finding, f.SameBut x y f := fun _ => Or.inl rfl
  rw [applyMethods, applyMethods]
  unfold lambdaScope Scope.bind
  rw [hx, hy]
  split
  · exact .refl hrefl _
  · dsimp only
    rw [pure_bind, pure_bind]
    refine (env.alike_body hfresh _).bind fun bodyType => ?_
    exact .refl hrefl _

/-- A chain of methods around the lambda. -/
theorem alike_applyMethods (hx : scope.lookup x = none) (hy : scope.lookup y = none) (id : ExprId)
    (index : Nat) (type : Ty) (before : List Method) (method : ParametricMethod) {body : Expr}
    (hfresh : y ∉ body.names) (after : List Method) :
    Alike (Finding.SameBut x y)
      (env.applyMethods id scope index type
        (before ++ .parametric method y (body.renamed (replacing x y)) :: after))
      (env.applyMethods id scope index type (before ++ .parametric method x body :: after)) := by
  have hrefl : ∀ f : Finding, f.SameBut x y f := fun _ => Or.inl rfl
  induction before generalizing index type with
  | nil => exact env.alike_lambda hx hy id index type method hfresh after
  | cons first rest ih =>
    rw [List.cons_append, List.cons_append]
    cases first with
    | simple m =>
      rw [applyMethods, applyMethods]
      refine (Alike.refl hrefl _).bind fun next => ?_
      split
      · exact .refl hrefl _
      · exact ih (index + 1) next
    | parametric m binder c =>
      rw [applyMethods, applyMethods]
      refine (Alike.refl hrefl _).bind fun inner => ?_
      cases inner with
      | none => exact .refl hrefl _
      | some inner =>
        refine (Alike.refl hrefl _).bind fun bodyType => ?_
        refine (Alike.refl hrefl _).bind fun next => ?_
        split
        · exact .refl hrefl _
        · exact ih (index + 1) next

end Env

namespace Model

/-- **Lambda variables are bound names.** If neither `x` nor `y` is declared where a path stands and
`y` does not occur in the body of a lambda over `x`, then the lambda may be over `y` instead, with
`y` for `x` all over its body. The path has the same type, and the same diagnostics but for the
name in their messages. -/
theorem inferType_lambda_renamed (m : Model) (aggregate : Option AggregateId)
    (policy : TernaryPolicy) (scope : Scope) (kind : ScopeKind) (x y : String)
    (hx : scope.isDeclared x = false) (hy : scope.isDeclared y = false) (id : ExprId)
    (head : PathHead) (properties : List String) (before : List Method)
    (method : ParametricMethod) (body : Expr) (hfresh : y ∉ body.names) (after : List Method) :
    let run := fun binder body => m.inferType aggregate policy scope kind
      ⟨id, .path head properties (before ++ .parametric method binder body :: after)⟩
    let renamed := run y (body.renamed (replacing x y))
    renamed.value = (run x body).value ∧
      List.Forall₂ (Diagnostic.SameBut x y) (renamed.findings.map Finding.diagnostic)
        ((run x body).findings.map Finding.diagnostic) := by
  intro run renamed
  have hrefl : ∀ f : Finding, f.SameBut x y f := fun _ => Or.inl rfl
  have halike : Alike (Finding.SameBut x y) renamed (run x body) := by
    refine (Alike.refl hrefl _).bind fun env => ?_
    rw [Env.infer, Env.infer]
    refine (Alike.refl hrefl _).bind fun type => ?_
    split
    · exact .refl hrefl _
    · refine env.alike_applyMethods ?_ ?_ id 0 type before method hfresh after
      · exact Option.not_isSome_iff_eq_none.mp (by simpa [Scope.isDeclared] using hx)
      · exact Option.not_isSome_iff_eq_none.mp (by simpa [Scope.isDeclared] using hy)
  refine ⟨halike.value, ?_⟩
  rw [List.forall₂_map_left_iff, List.forall₂_map_right_iff]
  exact halike.findings.imp fun _ _ h => h.diagnostic

/-- `batches.allMatch(b -> b.anyMatch(b -> true))` binds `b` twice, and under the name `batch` the
message says so of `batch`. -/
theorem inferType_lambda_renamed_batches :
    let scope := Scope.root [("batches", .collection (.collection .integer))]
    let body := fun b => (Expr.var b []).callLambda .anyMatch b (Expr.boolean true)
    let run := fun b => orders.inferType (some ⟨0⟩) .boolean scope .constructorAssignment
      ((Expr.var "batches" []).callLambda .allMatch b (body b))
    scope.isDeclared "b" = false ∧ scope.isDeclared "batch" = false ∧
      "batch" ∉ (body "b").names ∧
      (run "b").findings.map (·.problem) = [.variableRebound "b"] ∧
      (run "batch").value = (run "b").value ∧
      List.Forall₂ (Diagnostic.SameBut "b" "batch") ((run "batch").findings.map Finding.diagnostic)
        ((run "b").findings.map Finding.diagnostic) := by
  intro scope body run
  have old : scope.isDeclared "b" = false := by decide
  have new : scope.isDeclared "batch" = false := by decide
  have fresh : "batch" ∉ (body "b").names := by decide
  exact ⟨old, new, fresh, by decide, inferType_lambda_renamed orders (some ⟨0⟩) .boolean scope
    .constructorAssignment "b" "batch" old new ⟨0⟩ (.variable "batches") [] [] .allMatch (body "b")
    fresh []⟩

end Model

end DomainModel
