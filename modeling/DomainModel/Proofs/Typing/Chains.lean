import DomainModel.Proofs.Totality.Typing
import DomainModel.Proofs.Typing.Marks

/-! # Where property chains lead

`m.Resolves o chain type` says, without a walk, that a property chain can be resolved: all but
possibly the last property are single-valued references that point somewhere, and the last one is
such a reference too, or a collection reference that points somewhere, or an attribute that no
reference hides. Properties are looked up in the property owner of the object reached so far.

`walk_terminal_rule`: the walk finds exactly the type that the chain resolves to. If there is none,
it stops at the first property whose prefix cannot be resolved, wherever the chain goes on from
there, and a path expression reports this property once. The recursion is on the chain, so that
references which lead round in a circle do no harm. -/

namespace DomainModel

namespace Model

variable (m : Model)

/-! ### Properties -/

/-- The references of an object's property owner that have a name, in their order. -/
def referencesNamed (o : ObjectId) (name : String) : List Reference :=
  ((m.object (m.propertyOwner o).value).value.references.map fun r => (m.reference r).value).filter
    (·.name == name)

/-- The attributes of an object's property owner that have a name, in their order. -/
def attributesNamed (o : ObjectId) (name : String) : List Attribute :=
  ((m.object (m.propertyOwner o).value).value.attributes.map fun a =>
    (m.attributeOf a).value).filter (·.name == name)

/-- The property is a single-valued reference to `t`. -/
def LinksTo (o : ObjectId) (property : String) (t : ObjectId) : Prop :=
  ∃ r, (m.referencesNamed o property).head? = some r ∧ r.collection.isCollection = false ∧
    r.target = some t

/-- The property ends a chain: what it holds has no properties. -/
inductive EndsIn (o : ObjectId) (property : String) : Ty → Prop where
  | collection {r : Reference} {t : ObjectId}
    (first : (m.referencesNamed o property).head? = some r)
    (many : r.collection.isCollection = true) (target : r.target = some t) :
    EndsIn o property (.collection (.entity (m.object t).value.name))
  | attribute {a : Attribute} (unhidden : m.referencesNamed o property = [])
    (first : (m.attributesNamed o property).head? = some a) :
    EndsIn o property (.primitive a.type)

/-! ### Chains -/

/-- A chain of single-valued references leads from object to object. -/
inductive Leads : ObjectId → List String → ObjectId → Prop where
  | here (o : ObjectId) : Leads o [] o
  | next {o t u : ObjectId} {property : String} {rest : List String} (link : m.LinksTo o property t)
    (onward : Leads t rest u) : Leads o (property :: rest) u

/-- **The terminal rule.** A chain resolves to the entity that it leads to, or to what its last
property holds. -/
def Resolves (o : ObjectId) (chain : List String) (type : Ty) : Prop :=
  (∃ t, m.Leads o chain t ∧ type = .entity (m.object t).value.name) ∨
    ∃ init last t, chain = init ++ [last] ∧ m.Leads o init t ∧ m.EndsIn t last type

/-- The least position whose prefix cannot be resolved. -/
structure StopsAt (o : ObjectId) (chain : List String) (i : Nat) : Prop where
  lt : i < chain.length
  unresolved : ∀ type, ¬ m.Resolves o (chain.take (i + 1)) type
  least : ∀ j < i, ∃ type, m.Resolves o (chain.take (j + 1)) type

variable {m}

theorem resolves_nil {o : ObjectId} {type : Ty} :
    m.Resolves o [] type ↔ type = .entity (m.object o).value.name := by
  constructor
  · rintro (⟨t, ⟨⟩, h⟩ | ⟨init, last, t, h, -, -⟩)
    · exact h
    · simp at h
  · intro h
    exact Or.inl ⟨o, .here o, h⟩

/-- A chain resolves over a first reference, or it consists of one property that ends it. -/
theorem resolves_cons {o : ObjectId} {property : String} {rest : List String} {type : Ty} :
    m.Resolves o (property :: rest) type ↔
      (∃ t, m.LinksTo o property t ∧ m.Resolves t rest type) ∨
        (rest = [] ∧ m.EndsIn o property type) := by
  constructor
  · rintro (⟨u, hleads, h⟩ | ⟨init, last, u, hchain, hleads, hend⟩)
    · cases hleads with
      | next link onward => exact Or.inl ⟨_, link, Or.inl ⟨u, onward, h⟩⟩
    · cases hleads with
      | here =>
        cases hchain
        exact Or.inr ⟨rfl, hend⟩
      | next link onward =>
        cases hchain
        exact Or.inl ⟨_, link, Or.inr ⟨_, last, u, rfl, onward, hend⟩⟩
  · rintro (⟨t, link, ⟨u, onward, h⟩ | ⟨init, last, u, rfl, onward, hend⟩⟩ | ⟨rfl, hend⟩)
    · exact Or.inl ⟨u, .next link onward, h⟩
    · exact Or.inr ⟨property :: init, last, u, rfl, .next link onward, hend⟩
    · exact Or.inr ⟨[], property, o, rfl, .here o, hend⟩

/-! ### Steps -/

theorem head?_referencesNamed (o : ObjectId) (name : String) :
    (m.referencesNamed o name).head? =
      (m.referenceByName (m.propertyOwner o).value name).value.map fun r =>
        (m.reference r).value := by
  rw [referencesNamed, List.head?_filter, List.find?_map, referenceByName,
    Lookup.value_bind, Lookup.value_find?]
  rfl

theorem head?_attributesNamed (o : ObjectId) (name : String) :
    (m.attributesNamed o name).head? =
      (m.attributeByName (m.propertyOwner o).value name).value.map fun a =>
        (m.attributeOf a).value := by
  rw [attributesNamed, List.head?_filter, List.find?_map, attributeByName,
    Lookup.value_bind, Lookup.value_find?]
  rfl

/-- A step by the first reference of the name, or else by the first attribute of the name. -/
theorem value_step (o : ObjectId) (property : String) :
    (m.step o property).value =
      match (m.referencesNamed o property).head? with
      | some r =>
        match r.target with
        | some t =>
          if r.collection.isCollection then
            .terminal (.collection (.entity (m.object t).value.name))
          else .object t
        | none => .nowhere
      | none =>
        match (m.attributesNamed o property).head? with
        | some a => .terminal (.primitive a.type)
        | none => .nowhere := by
  rw [head?_referencesNamed, head?_attributesNamed]
  unfold step
  simp only [Lookup.value_bind]
  cases (m.referenceByName (m.propertyOwner o).value property).value with
  | some r =>
    simp only [Option.map_some, Lookup.value_bind]
    cases (m.reference r).value.target with
    | none => rfl
    | some t =>
      dsimp only
      split <;> rfl
  | none =>
    simp only [Option.map_none, Lookup.value_bind]
    cases (m.attributeByName (m.propertyOwner o).value property).value <;> rfl

theorem step_eq_object_iff {o t : ObjectId} {property : String} :
    (m.step o property).value = .object t ↔ m.LinksTo o property t := by
  rw [value_step]
  unfold LinksTo
  cases (m.referencesNamed o property).head? with
  | some r =>
    cases htarget : r.target with
    | some u => cases hmany : r.collection.isCollection <;> simp [htarget, hmany]
    | none => simp [htarget]
  | none => cases (m.attributesNamed o property).head? <;> simp

theorem step_eq_terminal_iff {o : ObjectId} {property : String} {type : Ty} :
    (m.step o property).value = .terminal type ↔ m.EndsIn o property type := by
  rw [value_step]
  constructor
  · intro h
    split at h
    · next r first =>
      split at h
      · next t target =>
        split at h
        · next many =>
          cases h
          exact .collection first many target
        · cases h
      · cases h
    · next none =>
      split at h
      · next a first =>
        cases h
        exact .attribute (List.head?_eq_none_iff.mp none) first
      · cases h
  · rintro (⟨first, many, target⟩ | ⟨unhidden, first⟩)
    · simp [first, many, target]
    · simp [unhidden, first]

/-! ### Walks -/

/-- The walk from an object, by its first step. -/
theorem value_walkFrom_cons (position : Nat) (o : ObjectId) (property : String)
    (rest : List String) :
    (m.walkFrom position o (property :: rest)).value =
      match (m.step o property).value with
      | .object t => (m.walkFrom (position + 1) t rest).value
      | .terminal type => if rest = [] then .ok type else .error (position + 1)
      | .nowhere => .error position := by
  rw [walkFrom, Lookup.value_bind]
  cases (m.step o property).value with
  | object t => rfl
  | terminal type => cases rest <;> rfl
  | nowhere => rfl

/-- **A walk finds a type exactly if the chain resolves to it.** -/
theorem walkFrom_eq_ok_iff {position : Nat} {o : ObjectId} {chain : List String} {type : Ty} :
    (m.walkFrom position o chain).value = .ok type ↔ m.Resolves o chain type := by
  induction chain generalizing position o with
  | nil =>
    rw [resolves_nil]
    constructor
    · rintro ⟨⟩
      rfl
    · rintro rfl
      rfl
  | cons property rest ih =>
    rw [value_walkFrom_cons, resolves_cons]
    simp only [← step_eq_object_iff, ← step_eq_terminal_iff]
    cases hstep : (m.step o property).value with
    | object t =>
      dsimp only
      rw [ih]
      simp
    | terminal held =>
      dsimp only
      by_cases hrest : rest = [] <;> simp [hrest]
    | nowhere => simp

/-- **A walk that fails does so however the chain goes on.** -/
theorem walkFrom_append {position i : Nat} {o : ObjectId} {chain : List String}
    (h : (m.walkFrom position o chain).value = .error i) (more : List String) :
    (m.walkFrom position o (chain ++ more)).value = .error i := by
  induction chain generalizing position o with
  | nil => cases h
  | cons property rest ih =>
    rw [List.cons_append, value_walkFrom_cons] at *
    cases hstep : (m.step o property).value with
    | object t =>
      rw [hstep] at h
      exact ih h
    | terminal type =>
      rw [hstep] at h
      by_cases hrest : rest = []
      · simp [hrest] at h
      · simpa [hrest] using h
    | nowhere => simpa [hstep] using h

/-- A walk fails behind a part of the chain that it has walked along. -/
theorem exists_walked {position i : Nat} {o : ObjectId} {chain : List String}
    (h : (m.walkFrom position o chain).value = .error i) :
    ∃ init property rest type, chain = init ++ property :: rest ∧ i = position + init.length ∧
      (m.walkFrom position o init).value = .ok type ∧
      (m.walkFrom position o (init ++ [property])).value = .error i := by
  induction chain generalizing position o with
  | nil => cases h
  | cons property rest ih =>
    rw [value_walkFrom_cons] at h
    cases hstep : (m.step o property).value with
    | object t =>
      rw [hstep] at h
      obtain ⟨init, next, tail, type, rfl, hi, hinit, hnext⟩ := ih h
      refine ⟨property :: init, next, tail, type, rfl, ?_, ?_, ?_⟩
      · rw [List.length_cons]
        omega
      · rw [value_walkFrom_cons, hstep]
        exact hinit
      · rw [List.cons_append, value_walkFrom_cons, hstep]
        exact hnext
    | terminal type =>
      rw [hstep] at h
      cases rest with
      | nil => cases h
      | cons next tail =>
        cases h
        refine ⟨[property], next, tail, type, rfl, rfl, ?_, ?_⟩
        · rw [value_walkFrom_cons, hstep]
          rfl
        · rw [List.cons_append, value_walkFrom_cons, hstep]
          rfl
    | nowhere =>
      rw [hstep] at h
      cases h
      refine ⟨[], property, rest, _, rfl, rfl, rfl, ?_⟩
      rw [List.nil_append, value_walkFrom_cons, hstep]

theorem walk_eq_ok_iff {o : ObjectId} {chain : List String} {type : Ty} :
    (m.walk o chain).value = .ok type ↔ m.Resolves o chain type := walkFrom_eq_ok_iff

/-- What resolves does so from its first property on. -/
theorem Resolves.of_append {o : ObjectId} {chain more : List String} {type : Ty}
    (h : m.Resolves o (chain ++ more) type) : ∃ first, m.Resolves o chain first := by
  cases hwalk : (m.walk o chain).value with
  | ok first => exact ⟨first, walk_eq_ok_iff.mp hwalk⟩
  | error i =>
    have hmore : (m.walk o (chain ++ more)).value = .error i := walkFrom_append hwalk more
    rw [walk_eq_ok_iff.mpr h] at hmore
    cases hmore

theorem StopsAt.eq {o : ObjectId} {chain : List String} {i j : Nat} (hi : m.StopsAt o chain i)
    (hj : m.StopsAt o chain j) : i = j := by
  rcases Nat.lt_trichotomy i j with h | h | h
  · obtain ⟨type, htype⟩ := hj.least i h
    exact absurd htype (hi.unresolved type)
  · exact h
  · obtain ⟨type, htype⟩ := hi.least j h
    exact absurd htype (hj.unresolved type)

theorem stopsAt_of_walk {o : ObjectId} {chain : List String} {i : Nat}
    (h : (m.walk o chain).value = .error i) : m.StopsAt o chain i := by
  obtain ⟨init, property, rest, type, rfl, hi, hinit, hnext⟩ := exists_walked h
  rw [Nat.zero_add] at hi
  subst hi
  refine ⟨by simp, fun type htype => ?_, fun j hj => ?_⟩
  · have htake : (init ++ property :: rest).take (init.length + 1) = init ++ [property] := by
      rw [List.append_cons, List.take_left' (by simp)]
    rw [htake, ← walk_eq_ok_iff] at htype
    rw [walk, hnext] at htype
    cases htype
  · have htake : (init ++ property :: rest).take (j + 1) = init.take (j + 1) :=
      List.take_append_of_le_length hj
    have hresolves := walkFrom_eq_ok_iff.mp hinit
    rw [← List.take_append_drop (j + 1) init] at hresolves
    rw [htake]
    exact hresolves.of_append

/-- **A walk stops at the first property whose prefix cannot be resolved.** -/
theorem walk_eq_error_iff {o : ObjectId} {chain : List String} {i : Nat} :
    (m.walk o chain).value = .error i ↔ m.StopsAt o chain i := by
  constructor
  · exact stopsAt_of_walk
  · intro h
    cases hwalk : (m.walk o chain).value with
    | ok type =>
      have hresolves := walk_eq_ok_iff.mp hwalk
      rw [← List.take_append_drop (i + 1) chain] at hresolves
      obtain ⟨first, hfirst⟩ := hresolves.of_append
      exact absurd hfirst (h.unresolved first)
    | error j => rw [(stopsAt_of_walk hwalk).eq h]

end Model

/-! ### Paths -/

namespace Env

variable {env : Env}

/-- **A path whose walk fails** gets the type `error` and one report, of the property at which it
fails. Its methods are not looked at. -/
theorem infer_of_walk_error {id : ExprId} {scope : Scope} {kind : ScopeKind} {head : PathHead}
    {o : ObjectId} {chain : List String} {i : Nat} {property : String}
    (hhead : (env.head id scope kind head).value = some (.object o))
    (hwalk : (env.model.walk o chain).value = .error i) (hproperty : chain[i]? = some property)
    (methods : List Method) :
    let path : Expr := ⟨id, .path head chain methods⟩
    (env.infer scope kind path).value = .error ∧
      (env.infer scope kind path).findings =
        [⟨.notEntityProperty property, .expr id, .properties, some i⟩] := by
  intro path
  have hsilent : (env.head id scope kind head).findings = [] :=
    (env.stops_head id scope kind head).findings_eq_nil (by rw [hhead]; simp)
  have hitem : (Lookup.item chain i).value = property := by
    unfold Lookup.item
    rw [hproperty]
  have hbase : (env.base id scope kind head chain).value = .error ∧
      (env.base id scope kind head chain).findings =
        [⟨.notEntityProperty property, .expr id, .properties, some i⟩] := by
    unfold base propertyError failAt
    simp [hhead, hwalk, hsilent, hitem]
  rw [infer]
  simp [hbase.1, hbase.2, Ty.isError]

end Env

/-! ### The rule -/

namespace Model

/-- **Property chains resolve by the terminal rule.** The walk finds the type to which the chain
resolves; otherwise it stops at the first property whose prefix does not resolve. It stops there
however the chain goes on, and a path with this chain reports that property and nothing else. With
handles in range the walk misses nothing, however the references are linked. -/
theorem walk_terminal_rule (m : Model) (o : ObjectId) (chain : List String) :
    (∀ type, (m.walk o chain).value = .ok type ↔ m.Resolves o chain type) ∧
      (∀ i, (m.walk o chain).value = .error i ↔ m.StopsAt o chain i) ∧
      (∀ i, (m.walk o chain).value = .error i →
        (∀ more, (m.walk o (chain ++ more)).value = .error i) ∧
        ∃ property, chain[i]? = some property ∧
          ∀ (env : Env) (id : ExprId) (scope : Scope) (kind : ScopeKind) (head : PathHead)
            (methods : List Method), env.model = m →
            (env.head id scope kind head).value = some (.object o) →
            let path : Expr := ⟨id, .path head chain methods⟩
            (env.infer scope kind path).value = .error ∧
              (env.infer scope kind path).findings =
                [⟨.notEntityProperty property, .expr id, .properties, some i⟩]) ∧
      (m.InRange → m.Holds o.any → (m.walk o chain).misses = []) := by
  refine ⟨fun _ => walk_eq_ok_iff, fun _ => walk_eq_error_iff, fun i hwalk => ?_,
    fun hm ho => (finds_walk hm ho chain).misses_eq⟩
  have hproperty := List.getElem?_eq_getElem (walk_eq_error_iff.mp hwalk).lt
  refine ⟨walkFrom_append hwalk, _, hproperty, ?_⟩
  rintro env id scope kind head methods rfl hhead
  exact env.infer_of_walk_error hhead hwalk hproperty methods

/-- The sample with a reference from every order to the one before. -/
def chainedOrders : Model :=
  { orders with
    objects :=
      [⟨"Order", ⟨0⟩, .entity ⟨none, none⟩, true, [⟨0⟩], [⟨0⟩, ⟨1⟩], none, none, []⟩,
        ⟨"Line", ⟨0⟩, .entity ⟨none, none⟩, false, [⟨1⟩], [], none, none, []⟩]
    references := [⟨"lines", ⟨0⟩, some ⟨1⟩, .list⟩, ⟨"previous", ⟨0⟩, some ⟨0⟩, .none⟩] }

/-- Round in a circle the chain resolves, but the lines are a collection, which has no price. -/
theorem walk_terminal_rule_chainedOrders :
    let m := chainedOrders
    let chain := ["previous", "previous", "lines"]
    let price : Expr := ⟨⟨0⟩, .path .root (chain ++ ["price"]) []⟩
    m.Resolves ⟨0⟩ chain (.collection (.entity "Line")) ∧ m.StopsAt ⟨0⟩ (chain ++ ["price"]) 3 ∧
      (m.walk ⟨0⟩ (chain ++ ["price"] ++ ["amount"])).value = .error 3 ∧
      ((Env.mk m (some ⟨0⟩) [] .boolean).infer .empty .intraInvariant price).findings =
        [⟨.notEntityProperty "price", .expr ⟨0⟩, .properties, some 3⟩] ∧
      (m.walk ⟨0⟩ chain).misses = [] := by
  intro m chain price
  obtain ⟨hok, -, -, hmisses⟩ := walk_terminal_rule m ⟨0⟩ chain
  obtain ⟨-, herror, hstop, -⟩ := walk_terminal_rule m ⟨0⟩ (chain ++ ["price"])
  have hlines : (m.walk ⟨0⟩ chain).value = .ok (.collection (.entity "Line")) := by decide
  have hprice : (m.walk ⟨0⟩ (chain ++ ["price"])).value = .error 3 := by decide
  obtain ⟨hmore, property, hproperty, hpath⟩ := hstop 3 hprice
  have hname : property = "price" := (Option.some.inj hproperty).symm
  subst hname
  have hroot : ((Env.mk m (some ⟨0⟩) [] .boolean).head ⟨0⟩ .empty .intraInvariant .root).value =
      some (.object ⟨0⟩) := by decide
  have hlinked : m.Linked := by decide
  exact ⟨(hok _).mp hlines, (herror 3).mp hprice, hmore ["amount"],
    (hpath _ ⟨0⟩ .empty .intraInvariant .root [] rfl hroot).2,
    hmisses (linked_iff_inRange.mp hlinked) (by decide)⟩

end Model

end DomainModel
