import DomainModel.Expr.Build
import DomainModel.Proofs.Loading
import DomainModel.Proofs.Places.Model
import DomainModel.Proofs.Totality.Analysis

/-! # Every diagnostic points into the model

In a model in range, every finding of the analysis is at a place inside the model
(`within_check`): the lemmas on the single rules ask for the places of the nodes that a rule goes
through, and these exist since the rule starts at a node of the model and follows handles that point
inside their arenas. So no diagnostic is without place, and the command line has a name for each
node that a diagnostic is about. -/

namespace DomainModel

/-- A look-up inside the arena finds the node of the handle. -/
theorem Lookup.getElem?_node {α : Type} [Inhabited α] {arena : Arena} {nodes : List α}
    {h : Handle arena} (hh : h.index < nodes.length) :
    nodes[h.index]? = some (Lookup.node nodes h).value := by
  unfold Lookup.node
  rw [List.getElem?_eq_getElem hh]

namespace Model

open Check

variable {m : Model}

/-! ### Nodes of handles -/

theorem getElem?_aggregate {a : AggregateId} (ha : m.Holds a.any) :
    m.aggregates[a.index]? = some (m.aggregate a).value :=
  Lookup.getElem?_node ha

theorem getElem?_object {o : ObjectId} (ho : m.Holds o.any) :
    m.objects[o.index]? = some (m.object o).value :=
  Lookup.getElem?_node ho

theorem getElem?_antiCorruption {owner : AntiCorruptionId} (h : m.Holds owner.any) :
    m.antiCorruptions[owner.index]? = some (m.antiCorruption owner).value :=
  Lookup.getElem?_node h

theorem getElem?_contextMap {h : ContextMapId} (hh : m.Holds h.any) :
    m.contextMaps[h.index]? = some (m.contextMap h).value :=
  Lookup.getElem?_node hh

theorem getElem?_relationship {r : RelationshipId} (hr : m.Holds r.any) :
    m.relationships[r.index]? = some (m.relationship r).value :=
  Lookup.getElem?_node hr

/-! ### Expressions of the model -/

theorem mem_exprNodes_of_aggregate {a : AggregateId} (ha : m.Holds a.any) {n : Expr}
    (hn : n ∈ (m.aggregate a).value.nodes) : n ∈ m.exprNodes := by
  have hmem := List.mem_of_getElem? (getElem?_aggregate ha)
  exact List.mem_append_left _ (List.mem_append_left _ (List.mem_flatMap.mpr ⟨_, hmem, hn⟩))

theorem mem_exprNodes_of_antiCorruption {h : AntiCorruptionId} (hh : m.Holds h.any) {n : Expr}
    (hn : n ∈ (m.antiCorruption h).value.nodes) : n ∈ m.exprNodes := by
  have hmem := List.mem_of_getElem? (getElem?_antiCorruption hh)
  exact List.mem_append_left _ (List.mem_append_right _ (List.mem_flatMap.mpr ⟨_, hmem, hn⟩))

theorem mem_exprNodes_of_object {o : ObjectId} (ho : m.Holds o.any) {n : Expr}
    (hn : n ∈ (m.object o).value.nodes) : n ∈ m.exprNodes := by
  have hmem := List.mem_of_getElem? (getElem?_object ho)
  exact List.mem_append_right _ (List.mem_flatMap.mpr ⟨_, hmem, hn⟩)

/-! ### Nodes with an owner -/

theorem everywhere_intraInvariant {a : AggregateId} (ha : m.Holds a.any) :
    ∀ i < (m.aggregate a).value.invariants.length,
      Everywhere m.PointsInto (.intraInvariant a i) :=
  fun _ hi => everywhere_of_hasNode ⟨_, getElem?_aggregate ha, hi⟩

theorem everywhere_interInvariant {owner : AntiCorruptionId} (h : m.Holds owner.any) :
    ∀ i < (m.antiCorruption owner).value.invariants.length,
      Everywhere m.PointsInto (.interInvariant owner i) :=
  fun _ hi => everywhere_of_hasNode ⟨_, getElem?_antiCorruption h, hi⟩

theorem everywhere_attributeTranslation {owner : AntiCorruptionId} (h : m.Holds owner.any) :
    ∀ i < (m.antiCorruption owner).value.attributes.length,
      Everywhere m.PointsInto (.attributeTranslation owner i) :=
  fun _ hi => everywhere_of_hasNode ⟨_, getElem?_antiCorruption h, hi⟩

/-- What an object in its arena has, for the fields that are looked up by its handle. -/
theorem bind_objects {β : Type} {o : ObjectId} (ho : m.Holds o.any) (f : DomainObject → Option β) :
    m.objects[o.index]?.bind f = f (m.object o).value := by
  rw [getElem?_object ho]
  rfl

theorem withinMapping (hm : m.InRange) {o : ObjectId} (ho : m.Holds o.any) {e : EntityMapping}
    (he : (m.object o).value.mapping? = some e) : WithinMapping m.PointsInto o e := by
  have hmapping : m.mapping? o = some e := (bind_objects ho _).trans he
  have hentity := ((finds_object hm ho).value_prop.mapping e he).entity
  constructor
  · exact everywhere_of_hasNode ho
  · exact everywhere_of_hasNode (Option.isSome_of_mem hmapping)
  · exact fun mapped hmapped => everywhere_of_hasNode (hentity mapped hmapped)
  · intro i d hd
    have hnode : m.HasNode (.aliasDeclaration o i) :=
      ⟨e, hmapping, (List.getElem?_eq_some_iff.mp hd).1⟩
    exact ⟨everywhere_of_hasNode hnode, throughout_of_lists hnode (.aliasReferences hmapping hd)⟩
  · intro i a ha
    have hnode : m.HasNode (.attributeMapping o i) :=
      ⟨e, hmapping, (List.getElem?_eq_some_iff.mp ha).1⟩
    exact ⟨everywhere_of_hasNode hnode, throughout_of_lists hnode (.pathReferences hmapping ha)⟩

theorem withinConstructor {o : ObjectId} (ho : m.Holds o.any) {c : Constructor}
    (hc : (m.object o).value.constructor = some c) :
    WithinBody m.PointsInto (.constructor o) c.parameters c.assigned := by
  have hconstructor : m.constructor? o = some c := (bind_objects ho _).trans hc
  have hparameters : m.parameters? (.constructor o) = some c.parameters := by
    rw [parameters?, hconstructor]
    rfl
  constructor
  · exact everywhere_of_hasNode (Option.isSome_of_mem hparameters)
  · exact fun i hi => everywhere_of_hasNode ⟨_, hparameters, hi⟩
  · intro a ha
    obtain ⟨⟨assignment, i⟩, hi, rfl⟩ := List.mem_map.mp ha
    exact everywhere_of_hasNode ⟨c, hconstructor, List.snd_lt_of_mem_zipIdx hi⟩
  · intro a ha
    refine atNodes_of_subset fun n hn => mem_exprNodes_of_object ho ?_
    have hmem : n ∈ c.nodes := by
      rw [← c.nodes_assigned]
      exact List.mem_flatMap.mpr ⟨a, ha, hn⟩
    unfold DomainObject.nodes
    rw [hc]
    exact List.mem_append_left _ hmem

theorem withinOperation {o : ObjectId} (ho : m.Holds o.any) {i : Nat} {p : Operation}
    (hp : (m.object o).value.operations[i]? = some p) :
    WithinBody m.PointsInto (.operation o i) p.parameters p.assigned := by
  have hoperation : m.operation? o i = some p := (bind_objects ho _).trans hp
  have hparameters : m.parameters? (.operation o i) = some p.parameters := by
    rw [parameters?, hoperation]
    rfl
  constructor
  · exact everywhere_of_hasNode (Option.isSome_of_mem hparameters)
  · exact fun i hi => everywhere_of_hasNode ⟨_, hparameters, hi⟩
  · intro a ha
    obtain ⟨⟨command, k⟩, hk, ha⟩ := List.mem_filterMap.mp ha
    cases command with
    | other text => cases ha
    | assignment left right =>
      cases ha
      exact everywhere_of_hasNode
        ⟨p, hoperation, left, right, List.mem_zipIdx_iff_getElem?.mp hk⟩
  · intro a ha
    refine atNodes_of_subset fun n hn => mem_exprNodes_of_object ho ?_
    have hmem : n ∈ p.nodes := by
      rw [← p.nodes_assigned]
      exact List.mem_flatMap.mpr ⟨a, ha, hn⟩
    unfold DomainObject.nodes
    exact List.mem_append_right _ (List.mem_flatMap.mpr ⟨p, List.mem_of_getElem? hp, hmem⟩)

/-! ### Subjects -/

section

variable (hm : m.InRange)
include hm

theorem contextMap_pointsInto {h : ContextMapId} (hh : m.Holds h.any) :
    (m.checkContextMap h).Within m.PointsInto := by
  have hrange := (finds_contextMap hm hh).value_prop
  apply within_checkContextMap
  · exact everywhere_of_hasNode hh
  · exact throughout_of_lists hh (.boundedContexts (getElem?_contextMap hh))
  · exact fun r hr => everywhere_of_hasNode (hrange.relationships r hr)
  · intro r hr supply hsupply
    have hholds := hrange.relationships r hr
    have hnode := getElem?_relationship hholds
    rw [hsupply] at hnode
    exact throughout_of_lists hholds (.exposedAggregates hnode)
  · intro c hc a ha o ho
    have hcontext := (finds_contextAggregates hm (hrange.contexts c hc)).value_prop
    have haggregate := (finds_aggregate hm (hcontext a ha)).value_prop
    exact everywhere_of_hasNode (haggregate.objects o ho)

theorem aggregate_pointsInto {a : AggregateId} (ha : m.Holds a.any) :
    (m.checkAggregate a).Within m.PointsInto := by
  have hobjects := (finds_aggregate hm ha).value_prop.objects
  apply within_checkAggregate
  · exact fun o ho => everywhere_of_hasNode (hobjects o ho)
  · exact fun o ho e he => withinMapping hm (hobjects o ho) he

theorem entity_pointsInto {o : ObjectId} (ho : m.Holds o.any) :
    (m.checkEntity o).Within m.PointsInto := by
  have hattributes := (finds_object hm ho).value_prop.attributes
  apply within_checkEntity
  · exact everywhere_of_hasNode ho
  · exact fun a ha => everywhere_of_hasNode (hattributes a ha)

theorem within_checksOf (policy : TernaryPolicy) {subject : Subject} (hs : subject ∈ m.subjects) :
    ∀ p ∈ m.checksOf policy subject, p.2.Within m.PointsInto := by
  simp only [subjects, List.mem_cons, List.mem_append, List.mem_map] at hs
  rcases hs with rfl | (((⟨c, hc, rfl⟩ | ⟨h, hh, rfl⟩) | ⟨a, ha, rfl⟩) | ⟨o, ho, rfl⟩) |
    ⟨ac, hac, rfl⟩
  · rw [checksOf, List.forall_mem_singleton]
    apply within_checkNames
    · exact fun c hc => everywhere_of_hasNode (holds_of_mem_contextIds hc)
    · exact fun a ha => everywhere_of_hasNode (holds_of_mem_aggregateIds ha)
    · exact fun o ho => everywhere_of_hasNode (holds_of_mem_objectIds ho)
    · exact fun a ha => everywhere_intraInvariant (holds_of_mem_aggregateIds ha)
  · have hc := holds_of_mem_contextIds hc
    rw [checksOf, List.forall_mem_singleton]
    exact within_checkBoundedContext (everywhere_of_hasNode hc)
  · rw [checksOf, List.forall_mem_singleton]
    exact contextMap_pointsInto hm (holds_of_mem_contextMapIds hh)
  · have ha := holds_of_mem_aggregateIds ha
    rw [checksOf, List.forall_mem_cons, List.forall_mem_singleton]
    refine ⟨aggregate_pointsInto hm ha, ?_⟩
    refine within_checkInvariants policy (everywhere_intraInvariant ha) ?_
    exact atNodes_of_subset fun n hn => mem_exprNodes_of_aggregate ha hn
  · have ho := holds_of_mem_objectIds ho
    rw [checksOf, List.forall_mem_cons, List.forall_mem_cons, List.forall_mem_singleton]
    refine ⟨entity_pointsInto hm ho, ?_, ?_⟩
    · exact within_checkConstructor policy fun c hc => withinConstructor ho hc
    · refine within_checkOperations policy (fun i p hp => withinOperation ho hp) fun i p hp => ?_
      have hwhole := (withinOperation ho hp).whole .commands
      exact throughout_of_lists hwhole.node (.commands ((bind_objects ho _).trans hp))
  · have hac := holds_of_mem_antiCorruptionIds hac
    rw [checksOf, List.forall_mem_cons, List.forall_mem_singleton]
    refine ⟨?_, ?_⟩
    · apply within_checkAntiCorruption
      · exact everywhere_of_hasNode hac
      · exact everywhere_attributeTranslation hac
      · exact everywhere_interInvariant hac
    · refine within_checkTranslationInvariants policy (everywhere_interInvariant hac) ?_
      exact atNodes_of_subset fun n hn => mem_exprNodes_of_antiCorruption hac hn

/-- **Every finding in a model in range is at a place inside the model.** -/
theorem within_check (settings : Settings) : (m.check settings).Within m.PointsInto := by
  refine within_each fun subject hs => within_each fun p hp => ?_
  have hcheck := within_checksOf hm settings.policy hs p hp
  obtain ⟨group, check⟩ := p
  exact within_ite hcheck

end

/-- **Every diagnostic points into the model.** The analysis of a loaded model, or of a built model
in range, misses nothing, whatever the settings. Each diagnostic has a place inside the model, and
the command line has a name for the node that it is about. -/
theorem analyze_pointsInto
    (hm : (∃ text, ofText text = .ok m) ∨ (∃ calls, Builder.build calls = .ok m) ∧ m.InRange)
    (settings : Settings) :
    (m.analyze settings).misses = [] ∧
      ∀ d ∈ (m.analyze settings).value.diagnostics,
        ∃ l, d.location = some l ∧ m.PointsInto l ∧ (l.node.describe? m).isSome := by
  have hrange : m.InRange := by
    rcases hm with ⟨text, h⟩ | ⟨-, h⟩
    · exact inRange_of_ofText h
    · exact h
  refine ⟨(total_check hrange settings).misses_eq, fun d hd => ?_⟩
  obtain ⟨f, hf, rfl⟩ := List.mem_map.mp hd
  have hinto := within_check hrange settings f hf
  exact ⟨f.location, rfl, hinto, NodeRef.isSome_describe? hrange hinto.node⟩

/-- Calls that build orders with unknown attributes in an invariant and a half-done operation. -/
def draftOrdersCalls : List Call :=
  [.context "Sales" .feature, .aggregate ⟨0⟩ "Orders", .rootEntity ⟨0⟩ "Order",
    .keyAttribute ⟨0⟩ "id" "String",
    .operation ⟨0⟩ ⟨"Order", [⟨"id", ⟨.none, .primitive "String"⟩⟩], none,
      [.other "log(id)", .assignment ⟨some "that", ["id"]⟩ (.var "id" [])]⟩,
    .invariant ⟨0⟩ "unpaid" (.compare (.root ["total"]) .gt (.root ["paid"]))]

/-- The model that the calls build. -/
def draftOrders : Model :=
  { Model.empty with
    contexts := [⟨"Sales", .feature, [⟨0⟩], [], [], [], none⟩]
    aggregates := [⟨"Orders", some ⟨0⟩, [⟨0⟩], [⟨"unpaid", ⟨⟨0⟩, .binary (.comparison .gt)
      ⟨⟨1⟩, .path .root ["total"] []⟩ ⟨⟨2⟩, .path .root ["paid"] []⟩⟩⟩]⟩]
    objects :=
      [⟨"Order", ⟨0⟩, .entity ⟨none, none⟩, true, [⟨0⟩], [], none, none,
        [⟨"Order", [⟨"id", ⟨.none, .primitive "String"⟩⟩], none, [.other "log(id)",
          .assignment ⟨some "that", ["id"]⟩ ⟨⟨3⟩, .path (.variable "id") [] []⟩]⟩]⟩]
    attributes := [⟨"id", "String", ⟨0⟩, true, none⟩] }

theorem analyze_pointsInto_draftOrders :
    Builder.build draftOrdersCalls = .ok draftOrders ∧ draftOrders.InRange ∧
      (draftOrders.analyze .default).value.diagnostics.map (·.location) =
        [some ⟨.expr ⟨1⟩, .properties, some 0⟩, some ⟨.expr ⟨2⟩, .properties, some 0⟩,
          some ⟨.callable (.operation ⟨0⟩ 0), .commands, some 0⟩,
          some ⟨.assignment (.operation ⟨0⟩ 0) 1, .leftValue, none⟩] ∧
      (draftOrders.analyze .default).misses = [] ∧
      ∀ d ∈ (draftOrders.analyze .default).value.diagnostics,
        ∃ l, d.location = some l ∧ draftOrders.PointsInto l ∧
          (l.node.describe? draftOrders).isSome := by
  have built : Builder.build draftOrdersCalls = .ok draftOrders := rfl
  have range : draftOrders.InRange := linked_iff_inRange.mp (by decide)
  exact ⟨built, range, by decide, analyze_pointsInto (.inr ⟨⟨_, built⟩, range⟩) .default⟩

end Model

end DomainModel
