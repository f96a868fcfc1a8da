import DomainModel.Proofs.Building.Steps
import DomainModel.Proofs.Totality.Navigation

/-! # What a sequence of calls builds

A call is legal after other calls if the handles that it is given are handles that they have given,
and if it names the context of a module as that module was declared (`Call.Legal`). What the calls
have given stands in a `Log`.

Legal calls keep the model linked and wired (`Built`), so a legal sequence of calls succeeds, and
the model that it builds is linked. Its upward and its downward links agree exactly as long as the
nodes have a handle each. -/

namespace DomainModel

/-! ### Legal calls -/

/-- The calls that were made, each with the position that it has given. -/
abbrev Log := List (Call × Option Nat)

namespace Log

variable (log : Log)

/-- The handles that the calls have given. -/
def handles : List AnyHandle :=
  log.filterMap fun (call, result) =>
    match call.adds, result with
    | some arena, some i => some (Handle.ofIndex i : Handle arena).any
    | _, _ => none

/-- The modules, each with the context in which it was declared. -/
def homes : List (ModuleId × ContextId) :=
  log.filterMap fun (call, result) =>
    match call.home, result with
    | some c, some i => some (.ofIndex i, c)
    | _, _ => none

end Log

namespace Call

/-- A call that may be made after those of the log. -/
structure Legal (log : Log) (call : Call) : Prop where
  given : ∀ h ∈ call.handles, h ∈ log.handles
  home : ∀ x ∈ call.within, x ∈ log.homes

instance (log : Log) : DecidablePred (Legal log) := fun call =>
  decidable_of_iff ((∀ h ∈ call.handles, h ∈ log.handles) ∧ ∀ x ∈ call.within, x ∈ log.homes)
    ⟨fun h => ⟨h.1, h.2⟩, fun h => ⟨h.1, h.2⟩⟩

end Call

namespace Builder

/-- Every call is legal after the ones before it. -/
def LegalFrom (log : Log) (m : Model) : List Call → Prop
  | [] => True
  | call :: calls => call.Legal log ∧
    ∀ x ∈ (call.run.run m).toOption, LegalFrom (log ++ [(call, x.1)]) x.2 calls

/-- A legal sequence of calls on a new builder. -/
def Legal (calls : List Call) : Prop := LegalFrom [] .empty calls

instance decidableLegalFrom : ∀ (log : Log) (m : Model) (calls : List Call),
    Decidable (LegalFrom log m calls)
  | _, _, [] => inferInstanceAs (Decidable True)
  | log, m, call :: calls =>
    have (x : Option Nat × Model) := decidableLegalFrom (log ++ [(call, x.1)]) x.2 calls
    inferInstanceAs (Decidable (call.Legal log ∧
      ∀ x ∈ (call.run.run m).toOption, LegalFrom (log ++ [(call, x.1)]) x.2 calls))

instance (calls : List Call) : Decidable (Legal calls) := decidableLegalFrom [] .empty calls

end Builder

/-! ### Built models -/

/-- What holds after the calls of the log. -/
structure Built (log : Log) (m : Model) : Prop where
  size : ∀ arena, m.size arena = log.countP (·.1.adds = some arena)
  held : ∀ h ∈ log.handles, m.Holds h
  stores : m.StoresOnly m.Holds
  wired : m.Wired (log.filterMap (·.1.home)) (log.filterMap (·.1.map))
  homes : ∀ x ∈ log.homes, ∃ i, (log.filterMap (·.1.home))[i]? = some x.2 ∧ x.1 = .ofIndex i

theorem Call.adds_of_home {call : Call} {c : ContextId} (h : call.home = some c) :
    call.adds = some .module := by
  cases call <;> first | rfl | cases h

section

variable {log : Log} {m m' : Model} {call : Call} {result : Option Nat}

theorem Call.Step.holds (hstep : call.Step m result m') {h : AnyHandle} (hh : m.Holds h) :
    m'.Holds h :=
  Nat.lt_of_lt_of_le hh (hstep.size h.arena ▸ Nat.le_add_right ..)

/-- The handle of a new node points at a node, even if it has wrapped around. -/
theorem Call.Step.holds_new (hstep : call.Step m result m') {arena : Arena}
    (h : call.adds = some arena) : m'.Holds (Handle.ofIndex (m.size arena) : Handle arena).any := by
  have hsize := hstep.size arena
  rw [if_pos h] at hsize
  change (Handle.ofIndex (m.size arena) : Handle arena).index < m'.size arena
  have hle := Handle.index_ofIndex_le arena (m.size arena)
  omega

theorem built_empty : Built [] .empty where
  size := by rintro (_ | _) <;> rfl
  held := by simp [Log.handles]
  stores := by constructor <;> simp [Model.empty]
  wired := {
    homes_length := rfl
    maps_length := rfl
    modules := fun _ => .refl _
    relationships := fun _ => .refl _
    objects := fun _ => .refl _
    attributes := fun _ => .refl _
    references := fun _ => .refl _
    antiCorruptions := fun _ => .refl _
    aggregates := fun _ c => by cases c <;> exact .refl _ }
  homes := by simp [Log.homes]

/-- **A legal call succeeds and keeps the model linked and wired.** -/
theorem Built.step (hb : Built log m) (hlegal : call.Legal log) :
    ∃ result m', call.run.run m = .ok (result, m') ∧ Built (log ++ [(call, result)]) m' := by
  obtain ⟨result, m', hrun, hstep⟩ :=
    call.succeeds fun h hh => hb.held h (hlegal.given h hh)
  have hpassed : ∀ h ∈ call.handles, m'.Holds h := fun h hh =>
    hstep.holds (hb.held h (hlegal.given h hh))
  refine ⟨result, m', hrun, {
    size := ?size, held := ?held, stores := ?stores, wired := ?wired, homes := ?homes }⟩
  case size =>
    intro arena
    rw [hstep.size, hb.size, List.countP_append]
    simp [List.countP_singleton]
  case held =>
    rw [Log.handles, List.filterMap_append]
    refine List.forall_mem_append.mpr ⟨fun h hh => hstep.holds (hb.held h hh), ?_⟩
    cases hadds : call.adds with
    | none => simp [hadds]
    | some arena => simpa [hadds, hstep.result arena hadds] using hstep.holds_new hadds
  case stores =>
    exact hstep.stores _ (hb.stores.mono fun _ => hstep.holds) hpassed fun _ => hstep.holds_new
  case wired =>
    have hw := hstep.wired _ _ hb.wired fun x hx => hb.homes x (hlegal.home x hx)
    rw [List.filterMap_append, List.filterMap_append]
    cases hhome : call.home <;> cases hmap : call.map <;> simpa [hhome, hmap] using hw
  case homes =>
    intro x hx
    rw [List.filterMap_append]
    rw [Log.homes, List.filterMap_append, List.mem_append] at hx
    rcases hx with hx | hx
    · obtain ⟨i, hi, hx⟩ := hb.homes x hx
      refine ⟨i, ?_, hx⟩
      rw [List.getElem?_append_left (List.getElem?_eq_some_iff.mp hi).1, hi]
    · cases hhome : call.home with
      | none => simp [hhome] at hx
      | some c =>
        -- a new module stands behind the others, so its context is the last one
        have hresult := hstep.result .module (Call.adds_of_home hhome)
        simp only [List.filterMap_cons, List.filterMap_nil, hhome, hresult, Handle.ofIndex_index,
          List.mem_singleton] at hx
        refine ⟨m.modules.length, ?_, by rw [hx]; rfl⟩
        rw [← hb.wired.homes_length, hx]
        simp [hhome]

/-- **A legal sequence of calls succeeds and keeps the model linked and wired.** -/
theorem Built.run (hb : Built log m) {calls : List Call} (hlegal : Builder.LegalFrom log m calls) :
    ∃ more m', more.map Prod.fst = calls ∧
      (Builder.runAll calls).run m = .ok (more.map Prod.snd, m') ∧ Built (log ++ more) m' := by
  induction calls generalizing log m with
  | nil => exact ⟨[], m, rfl, rfl, by simpa using hb⟩
  | cons call calls ih =>
    obtain ⟨hcall, hrest⟩ := hlegal
    obtain ⟨result, next, hrun, hnext⟩ := hb.step hcall
    rw [hrun] at hrest
    obtain ⟨more, m', hcalls, hruns, hm'⟩ := ih hnext (hrest _ rfl)
    refine ⟨(call, result) :: more, m', by simp [hcalls], ?_, by simpa using hm'⟩
    rw [Builder.runAll, List.mapM_cons, StateT.run_bind, hrun]
    change (do let rest ← Builder.runAll calls; pure (result :: rest)).run next = _
    rw [StateT.run_bind, hruns]
    rfl

end

namespace Builder

/-- **Legal calls build a model whose links are in order.** The model passes the check of its links,
and its upward and its downward links agree exactly as long as no more nodes of a kind that has
parents are added than there are handles. -/
theorem linksAgree_build {calls : List Call} (hlegal : Legal calls) :
    ∃ m, build calls = .ok m ∧ m.dangling? = none ∧
      (m.LinksAgree ↔ ∀ arena, arena ≠ .context → arena ≠ .contextMap →
        calls.countP (·.adds = some arena) ≤ UInt32.size) := by
  obtain ⟨log, m, hcalls, hrun, hm⟩ := built_empty.run hlegal
  refine ⟨m.numbered, ?_, ?_, ?_⟩
  · simp [build, hrun]
  · rw [Model.dangling?_eq_none, Model.linked_numbered]
    exact linked_iff_storesOnly.mpr hm.stores
  · have hsize : ∀ arena, m.numbered.size arena = calls.countP (·.adds = some arena) := by
      intro arena
      rw [Model.size_numbered, hm.size, ← hcalls, List.countP_map]
      rfl
    simp only [← hsize]
    exact ((Model.sameWiring_numbered m).wired hm.wired).linksAgree_iff

/-- A shop whose orders are kept in a module, and an office that translates them. -/
def shop : List Call :=
  let sales : ContextId := .ofIndex 0
  let office : ContextId := .ofIndex 1
  let orders : ModuleId := .ofIndex 0
  let order : AggregateId := .ofIndex 0
  let root : ObjectId := .ofIndex 0
  [.context "Sales" .application, .context "Office" .team, .owner sales office,
    .module sales "Orders", .moduleAggregate orders sales "Order", .rootEntity order "Order",
    .entity order "Line", .keyAttribute root "number" "String",
    .reference root "lines" (.ofIndex 1) .list,
    .constructor root ⟨[⟨"first", ⟨.none, .domainObject (some (.ofIndex 1))⟩⟩], []⟩,
    .constructor root ⟨[], []⟩, .aggregate office "Archive",
    .antiCorruption office "OrderEntry" .translation sales order,
    .translate (.ofIndex 0) "entry" "String" (.ofIndex 0),
    .contextMap "Landscape" none [sales, office], .upstreamDownstream (.ofIndex 0) sales office]

theorem linksAgree_build_shop :
    Legal shop ∧ ∃ m, build shop = .ok m ∧ m.dangling? = none ∧ m.LinksAgree := by
  have hlegal : Legal shop := by decide +kernel
  obtain ⟨m, hbuild, hlinked, hagree⟩ := linksAgree_build hlegal
  refine ⟨hlegal, m, hbuild, hlinked, hagree.mpr ?_⟩
  rintro arena - -
  cases arena <;> decide

end Builder

end DomainModel
