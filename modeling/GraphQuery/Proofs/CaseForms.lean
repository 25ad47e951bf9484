import GraphQuery.Proofs.CallPaths
import GraphQuery.Proofs.ComparisonLaws

/-! A CASE over a subject is the CASE over equations of the subject, as far as a branch applies or ELSE is
given, and IF is the CASE over one condition. -/

namespace GraphQuery

namespace Meaning

variable {accepts accepts' : Entry → Outcome Bool} {otherwise otherwise' : Meaning} {scope : Scope}
  {cs : List (Meaning × Meaning)}

/-- What a branch decides on a condition: whether its result is taken. -/
def takes (accepts : Entry → Outcome Bool) (scope : Scope) (condition : Meaning) : Outcome Bool :=
  condition scope >>= accepts

theorem branches_cons (condition result : Meaning) : branches accepts otherwise scope ((condition, result) :: cs) =
    condition.takes accepts scope >>= fun taken =>
      if taken then result scope else branches accepts otherwise scope cs := by
  rw [branches, takes, bind_assoc]

/-- Conditions count only by what is decided on them. -/
theorem branches_congr {α : Type} {condition condition' result : α → Meaning} {items : List α}
    (h : ∀ a ∈ items, (condition a).takes accepts scope = (condition' a).takes accepts' scope) :
    branches accepts otherwise scope (items.map fun a => (condition a, result a)) =
      branches accepts' otherwise scope (items.map fun a => (condition' a, result a)) := by
  induction items with
  | nil => rfl
  | cons a items ih =>
    obtain ⟨hhead, htail⟩ := List.forall_mem_cons.mp h
    rw [List.map_cons, List.map_cons, branches_cons, branches_cons, hhead, ih htail]

theorem branches_of_none_taken (h : ∀ c ∈ cs, c.1.takes accepts scope = .ok false) :
    branches accepts otherwise scope cs = otherwise scope := by
  induction cs with
  | nil => rfl
  | cons c cs ih =>
    obtain ⟨hhead, htail⟩ := List.forall_mem_cons.mp h
    rw [branches_cons, hhead]
    exact ih htail

/-- ELSE is not reached past a branch that is taken or fails. -/
theorem branches_of_some_taken (h : ¬∀ c ∈ cs, c.1.takes accepts scope = .ok false) :
    branches accepts otherwise scope cs = branches accepts otherwise' scope cs := by
  induction cs with
  | nil => exact absurd (by simp) h
  | cons c cs ih =>
    rw [branches_cons, branches_cons]
    cases hc : c.1.takes accepts scope with
    | error fault => rfl
    | ok taken =>
      cases taken with
      | true => rfl
      | false => exact ih fun htail => h (List.forall_mem_cons.mpr ⟨hc, htail⟩)

end Meaning

theorem Entry.isTrue_bool (b : Bool) : (constant (.bool b)).isTrue = b := by
  cases b <;> rfl

theorem matchesSubject_eq (s c : Entry) : matchesSubject s c = (Entry.equality .eq s c).map Entry.isTrue := by
  have helement : .ok (s.same c) = (Except.ok (ε := Error) (Entry.constant (.bool (s.same c)))).map Entry.isTrue :=
    congrArg Except.ok (Entry.isTrue_bool _).symm
  cases s with
  | constant a =>
    cases c with
    | constant b =>
      rw [matchesSubject, Entry.equality]
      cases a.compareBy .eq b <;> rfl
    | _ => exact helement
  | _ => exact helement

/-- An equation decides as matching does. -/
theorem Meaning.takes_equation {subject candidate : Meaning} {scope : Scope} {s : Entry}
    (hs : subject scope = .ok s) : takes (fun e => .ok e.isTrue) scope (binary (.comparison .eq) subject candidate) =
      takes (matchesSubject s) scope candidate := by
  rw [takes, takes, binary_equality (.inl rfl), hs]
  change (candidate scope >>= fun c => Entry.equality .eq s c) >>= _ = _
  rw [bind_assoc]
  refine congrArg _ (funext fun c => ?_)
  rw [matchesSubject_eq]
  cases Entry.equality .eq s c <;> rfl

namespace Expr

/-- The same expression under other ids. -/
def renumber (ids : ExprId → ExprId) (e : Expr) : Expr :=
  e.fold (fun id _ below => node (ids id) below) dangling

variable {env : Environment} {ids : ExprId → ExprId}

/-- A copy means what the original does where its aggregate calls are in the same states. -/
theorem meaning_renumber (h : ∀ id, List.lookup (ids id) env.slots = List.lookup id env.slots) (e : Expr) :
    (e.renumber ids).meaning env = e.meaning env := by
  induction e using Expr.induction with
  | dangling id => rfl
  | node id shape ih =>
    have hbelow : (shape.mapChildren (renumber ids)).mapChildren (meaning env) = shape.mapChildren (meaning env) := by
      rw [Node.mapChildren_mapChildren]
      exact Node.mapChildren_congr ih
    rw [renumber, fold_node, meaning_node, meaning_node]
    change evaluateNode env (ids id) ((shape.mapChildren (renumber ids)).mapChildren (meaning env)) = _
    rw [hbelow]
    cases shape.mapChildren (meaning env) with
    | aggregate function distinct args => simp only [evaluateNode, Environment.aggregateResult, h]
    | _ => rfl

end Expr

/-- A branch of a CASE: the candidate for the subject and the result. Over conditions it has an equation, with
an id of its own and a copy of the subject. -/
structure CaseBranch where
  candidate : Expr
  result : Expr
  equationId : ExprId
  copyIds : ExprId → ExprId

namespace CaseBranch

variable {env : Environment} {scope : Scope} {subject : Expr} {branches : List CaseBranch}

def equation (subject : Expr) (b : CaseBranch) : Expr :=
  .node b.equationId (.binary (.comparison .eq) (subject.renumber b.copyIds) b.candidate)

def simple (id : ExprId) (subject : Expr) (branches : List CaseBranch) (otherwise : Option Expr) : Expr :=
  .node id (.cases (some subject) (branches.map fun b => (b.candidate, b.result)) otherwise)

def searched (id : ExprId) (subject : Expr) (branches : List CaseBranch) (otherwise : Option Expr) : Expr :=
  .node id (.cases none (branches.map fun b => (b.equation subject, b.result)) otherwise)

/-- Copies of aggregate calls are in the states of the calls. -/
def CopiesIn (env : Environment) (b : CaseBranch) : Prop :=
  ∀ id, List.lookup (b.copyIds id) env.slots = List.lookup id env.slots

/-- Each equation is evaluated, and none is true. -/
def NoneApplies (env : Environment) (scope : Scope) (subject : Expr) (branches : List CaseBranch) : Prop :=
  ∀ b ∈ branches, ∃ verdict, (b.equation subject).meaning env scope = .ok verdict ∧ verdict.isTrue = false

theorem meaning_equation (b : CaseBranch) (h : b.CopiesIn env) : (b.equation subject).meaning env =
    Meaning.binary (.comparison .eq) (subject.meaning env) (b.candidate.meaning env) := by
  rw [equation, Expr.meaning_node, Node.mapChildren, Expr.meaning_renumber h]
  rfl

theorem meaning_searched (id : ExprId) (otherwise : Option Expr) :
    (searched id subject branches otherwise).meaning env scope =
      Meaning.branches (fun e => .ok e.isTrue) ((otherwise.map (Expr.meaning env)).getD Meaning.null) scope
        (branches.map fun b => ((b.equation subject).meaning env, b.result.meaning env)) := by
  rw [searched, Expr.meaning_node, Node.mapChildren, List.map_map]
  rfl

/-- A CASE over a subject is the one over its equations, apart from what is given without ELSE. -/
theorem meaning_simple (hne : branches ≠ []) (hcopies : ∀ b ∈ branches, b.CopiesIn env) (id : ExprId)
    (otherwise : Option Expr) : (simple id subject branches otherwise).meaning env scope =
      Meaning.branches (fun e => .ok e.isTrue) ((otherwise.map (Expr.meaning env)).getD Meaning.noMatch) scope
        (branches.map fun b => ((b.equation subject).meaning env, b.result.meaning env)) := by
  rw [simple, Expr.meaning_node, Node.mapChildren, List.map_map]
  change (subject.meaning env scope >>= fun s => Meaning.branches (matchesSubject s) _ scope
    (branches.map fun b => (b.candidate.meaning env, b.result.meaning env))) = _
  cases hs : subject.meaning env scope with
  | error fault =>
    -- the first equation evaluates its copy first of all
    obtain ⟨b, rest, rfl⟩ := List.exists_cons_of_ne_nil hne
    have hequation : (b.equation subject).meaning env scope = .error fault := by
      rw [meaning_equation b (hcopies b List.mem_cons_self), Meaning.binary_equality (.inl rfl), hs]
      rfl
    change Except.error fault = _
    rw [List.map_cons, Meaning.branches_cons, Meaning.takes, hequation]
    rfl
  | ok s =>
    refine Meaning.branches_congr fun b hb => ?_
    rw [meaning_equation b (hcopies b hb), Meaning.takes_equation hs]

theorem noneApplies_iff : NoneApplies env scope subject branches ↔
    ∀ c ∈ branches.map fun b => ((b.equation subject).meaning env, b.result.meaning env),
      c.1.takes (fun e => .ok e.isTrue) scope = .ok false := by
  rw [List.forall_mem_map]
  refine forall₂_congr fun b _ => ?_
  simp [Meaning.takes, Outcome.bind_eq_ok]

end CaseBranch

open CaseBranch in
/-- With ELSE, a CASE over a subject gives what the CASE over its equations gives, value or error. Without,
they part only where no branch applies: the first fails, the second gives Null. IF is the CASE of its one
condition. -/
theorem case_forms_agree (env : Environment) (scope : Scope) :
    (∀ (i j : ExprId) (subject : Expr) (branches : List CaseBranch), branches ≠ [] →
      (∀ b ∈ branches, b.CopiesIn env) →
        (∀ e, (simple i subject branches (some e)).meaning env scope =
          (searched j subject branches (some e)).meaning env scope) ∧
        (NoneApplies env scope subject branches →
          (simple i subject branches none).meaning env scope = .error .caseNoMatch ∧
            (searched j subject branches none).meaning env scope = .ok .null) ∧
        (¬NoneApplies env scope subject branches →
          (simple i subject branches none).meaning env scope =
            (searched j subject branches none).meaning env scope)) ∧
    ∀ (i j : ExprId) (condition result : Expr) (otherwise : Option Expr),
      (Expr.node i (.conditional condition result otherwise)).meaning env scope =
        (Expr.node j (.cases none [(condition, result)] otherwise)).meaning env scope := by
  refine ⟨fun i j subject branches hne hcopies => ⟨fun e => ?_, fun hnone => ⟨?_, ?_⟩, fun hsome => ?_⟩,
    fun i j condition result otherwise => rfl⟩
  · rw [meaning_simple hne hcopies, meaning_searched]
    rfl
  · rw [meaning_simple hne hcopies, Meaning.branches_of_none_taken (noneApplies_iff.mp hnone)]
    rfl
  · rw [meaning_searched, Meaning.branches_of_none_taken (noneApplies_iff.mp hnone)]
    rfl
  · rw [meaning_simple hne hcopies, meaning_searched]
    exact Meaning.branches_of_some_taken fun hnone => hsome (noneApplies_iff.mpr hnone)

open CaseBranch in
/-- A node compared with Null and with its snapshot: both forms take the second branch, and without it they
part. -/
theorem case_over_node_in_both_forms :
    let symbols := ((SymbolTable.empty.insert "n" .node).1.insert "s" .node).1
    let env : Environment := ⟨symbols, .ofGraph .empty, .ofEntries [.node 1, .nodeSnapshot 1], []⟩
    let n : Expr := .node 0 (.reference "n")
    let one : Expr := .node 2 (.literal (.int 1))
    let absent : CaseBranch := ⟨.node 3 (.literal .null), one, 4, (· + 10)⟩
    let same : CaseBranch := ⟨.node 1 (.reference "s"), one, 5, (· + 20)⟩
    (simple 6 n [absent, same] none).evaluate env = .ok (.constant (.int 1)) ∧
      (searched 7 n [absent, same] none).evaluate env = .ok (.constant (.int 1)) ∧
      (simple 6 n [absent] none).evaluate env = .error .caseNoMatch ∧
      (searched 7 n [absent] none).evaluate env = .ok .null := by
  intro symbols env n one absent same
  have hcopies : ∀ b : CaseBranch, b.CopiesIn env := fun b id => rfl
  obtain ⟨hforms, -⟩ := case_forms_agree env []
  have hone : (searched 7 n [absent, same] none).meaning env [] = .ok (.constant (.int 1)) := rfl
  have hsame : (same.equation n).meaning env [] = .ok (.constant (.bool true)) := rfl
  have hsome : ¬NoneApplies env [] n [absent, same] := fun hnone => by
    obtain ⟨verdict, hverdict, hfalse⟩ := hnone same (by simp)
    obtain rfl := Except.ok.inj (hsame.symm.trans hverdict)
    cases hfalse
  have hnone : NoneApplies env [] n [absent] := fun b hb => by
    obtain rfl := List.mem_singleton.mp hb
    exact ⟨.constant (.bool false), rfl, rfl⟩
  have htaken := (hforms 6 7 n [absent, same] (by simp) fun b _ => hcopies b).2.2 hsome
  obtain ⟨hsimple, hsearched⟩ := (hforms 6 7 n [absent] (by simp) fun b _ => hcopies b).2.1 hnone
  exact ⟨htaken.trans hone, hone, hsimple, hsearched⟩

end GraphQuery
