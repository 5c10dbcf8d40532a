/-!
Directed graphs and searches over them. What uses a search takes it as a parameter; the one that
programs run is depth first, with a stack of nodes and the set of those met before.
-/

namespace LoopNest

structure NodeId where
  index : Nat
deriving DecidableEq, Repr

structure Graph where
  size : Nat
  edges : List (NodeId × NodeId)
deriving DecidableEq, Repr

/-- The nodes that a search meets from a root on, in order. -/
structure Search where
  order : Graph → NodeId → List NodeId

namespace Graph

def nodes (g : Graph) : List NodeId := (List.range g.size).map NodeId.mk

/-- Where the edges from a node lead, the newest edge first. -/
def neighbours (g : Graph) (node : NodeId) : List NodeId :=
  ((g.edges.filter fun edge => edge.1 = node).map Prod.snd).reverse

/-- Walks depth first from a stack of nodes. A node that was met before is dropped; any other one is
met now, and its neighbours that were not are pushed one after the other. -/
def walk (g : Graph) (unseen : List NodeId) : List NodeId → List NodeId
  | [] => []
  | node :: stack =>
    if node ∈ unseen then
      let unseen := unseen.erase node
      node :: g.walk unseen (((g.neighbours node).filter (· ∈ unseen)).reverse ++ stack)
    else g.walk unseen stack
termination_by stack => (unseen.length, stack.length)
decreasing_by
  · have h := List.length_erase_of_mem ‹node ∈ _›
    have hpos := List.length_pos_of_mem ‹node ∈ _›
    exact Prod.Lex.left _ _ (by omega)
  · exact Prod.Lex.right _ (Nat.lt_succ_self _)

end Graph

namespace Search

def depthFirst : Search := ⟨fun g root => g.walk g.nodes [root]⟩

end Search

end LoopNest
