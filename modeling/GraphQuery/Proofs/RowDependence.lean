import GraphQuery.Proofs.RelatedEvaluation

/-! Evaluation depends on a row through the names that an expression mentions. -/

namespace GraphQuery

open Outcome (Related)

theorem Environment.related_rows (env : Environment) (r r' : Record) :
    Environment.Related .none Eq { env with record := r } { env with record := r' } where
  symbols := rfl
  parameters := rfl
  plugins := rfl
  pluginFaults := fun _ _ _ _ _ _ => rfl
  entries := .same_graph (T := .none) (fun _ _ => rfl) _
  results := fun _ _ => Related.none_iff.mpr rfl

namespace Expr

variable {env : Environment} {r r' : Record} (e : Expr)

theorem evaluate_congr_of_mentions (h : ∀ use name, e.Mentions use name →
      ∀ column, env.symbols.ReadsFor use name column → r.entryAt? column = r'.entryAt? column) :
    e.evaluate { env with record := r } = e.evaluate { env with record := r' } :=
  Related.none_iff.mp <| e.evaluate_related (env.related_rows r r') fun use name hname =>
    .of_eq (h use name hname)

/-- Rows that agree behind the free names of an expression give the same result, or the same error. -/
theorem evaluate_congr (h : ∀ name ∈ e.freeNames, ∀ column, env.symbols.Reads name column →
      r.entryAt? column = r'.entryAt? column) :
    e.evaluate { env with record := r } = e.evaluate { env with record := r' } :=
  e.evaluate_congr_of_mentions fun _ name hname column hcolumn =>
    h name hname.mem_freeNames column hcolumn.reads

end Expr

/-- Rows of any width and with any mark that agree in the columns of the names mentioned below a root,
and of the elements of the paths that are looked up among them, give the same result, or the same
error. The arena is one without a cycle, as for every `Arena.tree`. -/
theorem evaluation_depends_on_mentioned_names (a : Arena) (root : ExprId) (symbols : SymbolTable)
    (slots : Slots) (ctx : Context) (r r' : Record)
    (h : ∀ use name, a.Mentions use root name → ∀ column, symbols.ReadsFor use name column →
      r.entryAt? column = r'.entryAt? column) :
    (Evaluator.mk (a.tree root) symbols slots).evaluate ctx r =
      (Evaluator.mk (a.tree root) symbols slots).evaluate ctx r' := by
  let env := (Evaluator.mk (a.tree root) symbols slots).environment ctx r
  have htree : ∀ use name, (a.tree root).Mentions use name → ∀ column, env.symbols.ReadsFor use name column →
      r.entryAt? column = r'.entryAt? column :=
    fun use name hname => h use name (Arena.mentions_of_tree hname)
  exact (a.tree root).evaluate_congr_of_mentions htree

/-- `[x IN p | x]`, where the variable hides a column of the row. -/
def elementsOfPath : Arena :=
  ⟨#[.reference "p", .reference "x", .comprehension "x" 0 none (some 1)]⟩

/-- The hidden column, the width of the row and its mark do not matter. -/
theorem elementsOfPath_ignores_hidden_column :
    let symbols := (((SymbolTable.empty.insert "x" .constant).1.insert "a" .node).1.definePath "p" ["a"]).1
    let r : Record := ⟨[.constant (.bool true), .node 5], false⟩
    let r' : Record := ⟨[.unknown, .node 5, .unknown, .null], true⟩
    r.entryAt? 0 ≠ r'.entryAt? 0 ∧
      (Evaluator.ofExpr symbols (elementsOfPath.tree 2)).evaluate (.ofGraph .empty) r =
        (Evaluator.ofExpr symbols (elementsOfPath.tree 2)).evaluate (.ofGraph .empty) r' := by
  intro symbols r r'
  have hp : symbols.resolve "p" = some (2, .namedPath) := rfl
  have ha : symbols.resolve "a" = some (1, .node) := rfl
  have helements : symbols.pathElements "p" = some ["a"] := rfl
  have hcolumns : ∀ column, symbols.Reads "p" column → r.entryAt? column = r'.entryAt? column := by
    intro column hcolumn
    cases hcolumn with
    | own h =>
      obtain ⟨rfl, -⟩ := by simpa [hp] using h
      rfl
    | element _ hin hname hcolumn =>
      obtain rfl := Option.some.inj (helements.symm.trans hin)
      obtain rfl := List.mem_singleton.mp hname
      cases hcolumn with
      | own h =>
        obtain ⟨rfl, -⟩ := by simpa [ha] using h
        rfl
      | element h => simp [ha] at h
  refine ⟨nofun, ?_⟩
  refine evaluation_depends_on_mentioned_names elementsOfPath 2 symbols [] _ r r' ?_
  intro use name hname column hcolumn
  -- the list mentions the path, and what the projection mentions is bound
  have hroot : elementsOfPath.get? 2 = some (.comprehension "x" 0 none (some 1)) := rfl
  have hpath : use = .entry ∧ name = "p" := by
    cases hname with
    | own hnode hname =>
      obtain rfl := Option.some.inj (hroot.symm.trans hnode)
      cases use <;> cases hname
    | direct hnode hc h =>
      obtain rfl := Option.some.inj (hroot.symm.trans hnode)
      obtain rfl := List.mem_singleton.mp hc
      exact h.of_reference rfl
    | underBinder hnode hp h hne =>
      obtain rfl := Option.some.inj (hroot.symm.trans hnode)
      obtain rfl := List.mem_singleton.mp hp
      exact absurd (h.of_reference rfl).2 hne
  obtain ⟨rfl, rfl⟩ := hpath
  exact hcolumns column hcolumn

end GraphQuery
