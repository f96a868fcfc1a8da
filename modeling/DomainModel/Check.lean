import DomainModel.Lookup
import DomainModel.Diagnostic.Problem

/-! # Checks

A `Check` computes a value from a model and reports findings on the way. Like a look-up it notes what
was missed. A look-up is a check that reports nothing. -/

namespace DomainModel

/-- A value, the findings in the order of the reports, and what was missed. -/
structure Check (α : Type) where
  value : α
  findings : List Finding
  misses : List Miss

namespace Check

variable {α β : Type}

instance : Monad Check where
  pure a := ⟨a, [], []⟩
  bind x f :=
    let y := f x.value
    ⟨y.value, x.findings ++ y.findings, x.misses ++ y.misses⟩

instance : MonadLift Lookup Check where
  monadLift x := ⟨x.value, [], x.misses⟩

@[simp] theorem value_pure (a : α) : (pure a : Check α).value = a := rfl

@[simp] theorem findings_pure (a : α) : (pure a : Check α).findings = [] := rfl

@[simp] theorem misses_pure (a : α) : (pure a : Check α).misses = [] := rfl

@[simp] theorem value_bind (x : Check α) (f : α → Check β) :
    (x >>= f).value = (f x.value).value := rfl

@[simp] theorem findings_bind (x : Check α) (f : α → Check β) :
    (x >>= f).findings = x.findings ++ (f x.value).findings := rfl

@[simp] theorem misses_bind (x : Check α) (f : α → Check β) :
    (x >>= f).misses = x.misses ++ (f x.value).misses := rfl

@[simp] theorem value_lift (x : Lookup α) : (liftM x : Check α).value = x.value := rfl

@[simp] theorem findings_lift (x : Lookup α) : (liftM x : Check α).findings = [] := rfl

@[simp] theorem misses_lift (x : Lookup α) : (liftM x : Check α).misses = x.misses := rfl

@[ext] theorem ext {x y : Check α} (hv : x.value = y.value) (hf : x.findings = y.findings)
    (hm : x.misses = y.misses) : x = y := by
  cases x; cases y; simp_all

instance : LawfulMonad Check := LawfulMonad.mk' Check
  (fun _ => by ext1 <;> simp [Functor.map])
  (fun _ _ => by ext1 <;> simp)
  (fun _ _ _ => by ext1 <;> simp)

@[simp] theorem value_functor (f : α → β) (x : Check α) : (f <$> x).value = f x.value := rfl

@[simp] theorem findings_functor (f : α → β) (x : Check α) : (f <$> x).findings = x.findings := by
  simp [Functor.map]

@[simp] theorem misses_functor (f : α → β) (x : Check α) : (f <$> x).misses = x.misses := by
  simp [Functor.map]

/-- Report a problem at a feature of a node. -/
def report (problem : Problem) (node : NodeRef) (feature : Feature) : Check Unit :=
  ⟨(), [⟨problem, node, feature, none⟩], []⟩

/-- Report a problem at a position in a feature of a node. -/
def reportAt (problem : Problem) (node : NodeRef) (feature : Feature) (index : Nat) : Check Unit :=
  ⟨(), [⟨problem, node, feature, some index⟩], []⟩

/-- Check all items in order. -/
def each (f : α → Check Unit) : List α → Check Unit
  | [] => pure ()
  | a :: as => do
    f a
    each f as

/-- Check all items in order, with their positions. -/
def eachIdx (f : α → Nat → Check Unit) (as : List α) : Check Unit :=
  each (fun (a, i) => f a i) as.zipIdx

@[simp] theorem findings_report (p : Problem) (n : NodeRef) (f : Feature) :
    (report p n f).findings = [⟨p, n, f, none⟩] := rfl

@[simp] theorem findings_reportAt (p : Problem) (n : NodeRef) (f : Feature) (i : Nat) :
    (reportAt p n f i).findings = [⟨p, n, f, some i⟩] := rfl

@[simp] theorem misses_report (p : Problem) (n : NodeRef) (f : Feature) :
    (report p n f).misses = [] := rfl

@[simp] theorem misses_reportAt (p : Problem) (n : NodeRef) (f : Feature) (i : Nat) :
    (reportAt p n f i).misses = [] := rfl

@[simp] theorem findings_each (f : α → Check Unit) (as : List α) :
    (each f as).findings = as.flatMap (fun a => (f a).findings) := by
  induction as with
  | nil => rfl
  | cons a as ih => simp [each, ih]

@[simp] theorem misses_each (f : α → Check Unit) (as : List α) :
    (each f as).misses = as.flatMap (fun a => (f a).misses) := by
  induction as with
  | nil => rfl
  | cons a as ih => simp [each, ih]

end Check

end DomainModel
