import GraphQuery.Graph.Basic

/-! What an expression can see beyond its record: the graph, the parameters of the query and
functions registered from outside. -/

namespace GraphQuery

/-- Functions registered from outside, by name; no answer for a name not registered. A host is taken to answer
the same whenever it gets the same name and arguments. -/
abbrev Plugins := String → List Value → Outcome (Option Value)

/-- Parameters are looked up from the front, so a later binding goes in front. The graph is the one in memory;
it is read by the functions of `Graph` alone, but other stores that answer these are not covered. -/
structure Context where
  graph : Graph
  plugins : Option Plugins
  parameters : List (String × Value)

namespace Context

def ofGraph (graph : Graph) : Context := ⟨graph, none, []⟩

def bind (ctx : Context) (name : String) (value : Value) : Context :=
  { ctx with parameters := (name, value) :: ctx.parameters }

def parameter? (ctx : Context) (name : String) : Option Value :=
  List.lookup name ctx.parameters

end Context

end GraphQuery
