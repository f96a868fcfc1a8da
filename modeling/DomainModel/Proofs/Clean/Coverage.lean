import DomainModel.Analysis
import DomainModel.Proofs.Clean.Basic
import DomainModel.Proofs.Clean.Navigation
import DomainModel.Proofs.Totality.Links

/-! # Clean bodies

The body of a constructor, and of an operation named after its object, assigns every declared
attribute once and nothing else. The rule about coverage says so of the assignments
(`avoids_checkCoverage`); the rule about commands says that all commands are assignments to `this`.

What an assignment command assigns is taken to be the first property of its left side. So a clean
operation has one command for each declared attribute, and the command starts at that attribute
(`assigns_of_clean`); a left side with further properties passes as well
(`longer_left_side_of_clean`). -/

namespace DomainModel

/-- What a left side is taken to assign: its first property. -/
def LeftValue.target (left : LeftValue) : String := left.properties.headD ""

/-- What a command is taken to assign, if it is an assignment. -/
def Command.target? : Command → Option String
  | assignment left _ => some left.target
  | other _ => none

/-- A left side with a single property starts at it and goes no further. -/
theorem LeftValue.eq_of_length {left : LeftValue} (hthis : left.head = none)
    (hlength : left.properties.length = 1) : left = ⟨none, [left.target]⟩ := by
  obtain ⟨head, properties⟩ := left
  obtain ⟨a, rfl⟩ := List.length_eq_one_iff.mp hlength
  cases hthis
  rfl

namespace Model

open Check

variable {m : Model}

/-! ### Coverage -/

theorem repeatedAssignments_eq_nil {seen : List String} {as : List Assigned} :
    repeatedAssignments seen as = [] ↔
      (as.map (·.attributeName)).Nodup ∧ ∀ name ∈ as.map (·.attributeName), name ∉ seen := by
  induction as generalizing seen with
  | nil => simp [repeatedAssignments]
  | cons a as ih =>
    rw [repeatedAssignments, List.map_cons, nodup_unseen_cons]
    by_cases hseen : a.attributeName ∈ seen
    · simp [hseen]
    · rw [if_neg (by simpa using hseen), ih]
      exact (and_iff_right hseen).symm

theorem isNone_attributeByName {o : ObjectId} {name : String} :
    (m.attributeByName o name).value.isNone = true ↔ name ∉ m.attributeNames o := by
  rw [value_attributeByName, Option.isNone_iff_eq_none, List.find?_eq_none, attributeNames,
    List.mem_map]
  simp

/-- **Coverage:** the assigned names are distinct, and they are the declared ones. -/
theorem avoids_checkCoverage {callable : Callable} {o : ObjectId} {assignments : List Assigned} :
    (m.checkCoverage callable o assignments).Avoids (fun _ => True) ↔
      (assignments.map (·.attributeName)).Nodup ∧
        ∀ name, name ∈ assignments.map (·.attributeName) ↔ name ∈ m.attributeNames o := by
  simp only [checkCoverage, avoids_bind, avoids_each, avoids_lift, value_lift, avoids_ite,
    avoids_report, not_true, imp_false, isNone_attributeByName, not_not, true_and]
  have hrepeated : (∀ a ∈ repeatedAssignments [] assignments, False) ↔
      (assignments.map (·.attributeName)).Nodup := by
    rw [← List.eq_nil_iff_forall_not_mem, repeatedAssignments_eq_nil]
    simp
  have hmissing : (∀ b ∈ (m.object o).value.attributes,
      (!assignments.any fun a => a.attributeName == (m.attributeOf b).value.name) ≠ true) ↔
        ∀ name ∈ m.attributeNames o, name ∈ assignments.map (·.attributeName) := by
    simp [attributeNames]
  have hundeclared : (∀ a ∈ assignments, a.attributeName ∈ m.attributeNames o) ↔
      ∀ name ∈ assignments.map (·.attributeName), name ∈ m.attributeNames o := by
    simp
  rw [hrepeated, hmissing, hundeclared]
  constructor
  · rintro ⟨hnodup, hmissing, hundeclared⟩
    exact ⟨hnodup, fun name => ⟨hundeclared name, hmissing name⟩⟩
  · rintro ⟨hnodup, hiff⟩
    exact ⟨hnodup, fun name => (hiff name).mpr, fun name => (hiff name).mp⟩

/-! ### Commands -/

/-- Commands are in order exactly if all of them are assignments to `this`. -/
theorem avoids_checkCommands {callable : Callable} {commands : List Command} :
    (checkCommands callable commands).Avoids (fun _ => True) ↔
      ∀ command ∈ commands, ∃ left right, command = .assignment left right ∧ left.head = none := by
  rw [checkCommands, avoids_eachIdx]
  constructor
  · intro h command hmem
    obtain ⟨i, hi⟩ := List.getElem?_of_mem hmem
    have hone := h i command hi
    cases command with
    | assignment left right =>
      exact ⟨left, right, rfl, by simpa [avoids_ite, LeftValue.isThis] using hone⟩
    | other text => simp at hone
  · intro h i command hi
    obtain ⟨left, right, rfl, hthis⟩ := h command (List.mem_of_getElem? hi)
    simp [LeftValue.isThis, hthis]

theorem map_attributeName_assigned (operation : Operation) :
    operation.assigned.map (·.attributeName) = operation.commands.filterMap Command.target? := by
  unfold Operation.assigned
  generalize 0 = next
  induction operation.commands generalizing next with
  | nil => rfl
  | cons command rest ih =>
    rw [List.zipIdx_cons]
    cases command with
    | assignment left right => exact congrArg (left.target :: ·) (ih (next + 1))
    | other text => exact ih (next + 1)

/-! ### Operations -/

/-- **A clean constructor operation assigns every declared attribute once and nothing else,**
through `this`. A left side that is a single property is the attribute itself. -/
theorem assigns_of_clean (m : Model) {policy : TernaryPolicy} {o : ObjectId} {index : Nat}
    {operation : Operation} (hoperation : (m.object o).value.operations[index]? = some operation)
    (named : operation.name = (m.object o).value.name)
    (clean : (m.checkOperation policy o index).findings = []) :
    (∀ command ∈ operation.commands, ∃ left right, command = .assignment left right ∧
        left.head = none ∧ left.target ∈ m.attributeNames o ∧
        (left.properties.length = 1 → left = ⟨none, [left.target]⟩)) ∧
      ∀ name ∈ m.attributeNames o,
        (operation.commands.countP fun command => command.target? == some name) = 1 := by
  rw [findings_eq_nil_iff, checkOperation, avoids_lift_bind, hoperation] at clean
  simp only [named, beq_self_eq_true, if_true, avoids_bind, checkBody, avoids_lift, value_lift,
    true_and, avoids_checkCommands, avoids_checkCoverage, map_attributeName_assigned] at clean
  obtain ⟨-, hcommands, -, ⟨hnodup, hnames⟩, -⟩ := clean
  constructor
  · intro command hmem
    obtain ⟨left, right, rfl, hthis⟩ := hcommands command hmem
    have htarget : left.target ∈ operation.commands.filterMap Command.target? :=
      List.mem_filterMap.mpr ⟨_, hmem, rfl⟩
    exact ⟨left, right, rfl, hthis, (hnames _).mp htarget, LeftValue.eq_of_length hthis⟩
  · intro name hname
    rw [← List.count_filterMap]
    exact List.count_eq_one_of_mem hnodup ((hnames name).mpr hname)

/-- Orders that are made from their number by an operation. Its command assigns to `this`, followed
by the given properties. -/
def ordersFrom (properties : List String) : Model :=
  { Model.empty with
    contexts := [⟨"Sales", .feature, [⟨0⟩], [], [], [], none⟩]
    aggregates := [⟨"Orders", some ⟨0⟩, [⟨0⟩], []⟩]
    objects := [⟨"Order", ⟨0⟩, .entity ⟨none, none⟩, true, [⟨0⟩], [], none, none,
      [⟨"Order", [⟨"number", ⟨.none, .primitive "String"⟩⟩], none,
        [.assignment ⟨none, properties⟩ ⟨⟨0⟩, .path (.variable "number") [] []⟩]⟩]⟩]
    attributes := [⟨"number", "String", ⟨0⟩, false, none⟩] }

theorem assigns_of_clean_number :
    let m := ordersFrom ["number"]
    ∃ operation, (m.object ⟨0⟩).value.operations[0]? = some operation ∧
      operation.name = (m.object ⟨0⟩).value.name ∧
      (m.checkOperation .boolean ⟨0⟩ 0).findings = [] ∧
      (∀ command ∈ operation.commands, ∃ left right, command = .assignment left right ∧
        left.head = none ∧ left.target ∈ m.attributeNames ⟨0⟩ ∧
        (left.properties.length = 1 → left = ⟨none, [left.target]⟩)) ∧
      ∀ name ∈ m.attributeNames ⟨0⟩,
        (operation.commands.countP fun command => command.target? == some name) = 1 := by
  intro m
  have clean : (m.checkOperation .boolean ⟨0⟩ 0).findings = [] := by decide
  exact ⟨_, rfl, rfl, clean, m.assigns_of_clean rfl rfl clean⟩

/-- **A left side may go on behind the attribute:** the command assigns to a property of the number,
and passes for an assignment of the number itself. -/
theorem longer_left_side_of_clean :
    let m := ordersFrom ["number", "digits"]
    m.InRange ∧ (m.analyze .default).value.hasErrors = false ∧
      (m.checkOperation .boolean ⟨0⟩ 0).findings = [] ∧
      ((m.object ⟨0⟩).value.operations.map fun operation =>
        (operation.name, operation.commands.map fun
          | .assignment left _ => some left
          | .other _ => none)) = [("Order", [some ⟨none, ["number", "digits"]⟩])] :=
  ⟨linked_iff_inRange.mp (by decide), by decide, by decide, by decide⟩

end Model

end DomainModel
