import LoopNest.Storage.Registry
import Mathlib.Data.List.Nodup
import Mathlib.Logic.Relation

/-! Searches that meet the nodes reachable from a root, each once. The depth-first walk is one: what
is on the stack and not met yet will be met, and so will what an edge leads to from there. In a tree
every node is reachable. -/

namespace LoopNest

namespace Graph

def Edge (g : Graph) (above below : NodeId) : Prop := (above, below) ∈ g.edges

def Closed (g : Graph) : Prop := ∀ edge ∈ g.edges, edge.1 ∈ g.nodes ∧ edge.2 ∈ g.nodes

@[simp] theorem mem_nodes {g : Graph} {node : NodeId} : node ∈ g.nodes ↔ node.index < g.size := by
  obtain ⟨k⟩ := node
  simp [nodes]

theorem nodup_nodes (g : Graph) : g.nodes.Nodup :=
  List.Nodup.map (fun _ _ h => NodeId.mk.inj h) List.nodup_range

theorem mem_neighbours {g : Graph} {above below : NodeId} :
    below ∈ g.neighbours above ↔ g.Edge above below := by
  simp [neighbours, Edge]

section Walk

variable {g : Graph} {unseen stack : List NodeId}

theorem walk_subset (hnodup : unseen.Nodup) :
    (g.walk unseen stack).Nodup ∧ g.walk unseen stack ⊆ unseen := by
  fun_induction walk g unseen stack with
  | case1 unseen => exact ⟨List.nodup_nil, List.nil_subset _⟩
  | case2 unseen node stack hmem rest ih =>
    obtain ⟨hrest, hsubset⟩ := ih (hnodup.erase node)
    refine ⟨List.nodup_cons.mpr ⟨fun h => ?_, hrest⟩, List.cons_subset.mpr ⟨hmem, fun n hn => ?_⟩⟩
    · exact hnodup.not_mem_erase (hsubset h)
    · exact List.mem_of_mem_erase (hsubset hn)
  | case3 unseen node stack hmem ih => exact ih hnodup

theorem exists_path_of_mem_walk {node : NodeId} (h : node ∈ g.walk unseen stack) :
    ∃ start ∈ stack, Relation.ReflTransGen g.Edge start node := by
  fun_induction walk g unseen stack with
  | case1 unseen => cases h
  | case2 unseen top stack hmem rest ih =>
    obtain rfl | hrest := List.mem_cons.mp h
    · exact ⟨node, List.mem_cons_self, .refl⟩
    · obtain ⟨start, hstart, hpath⟩ := ih hrest
      obtain hbelow | hstack := List.mem_append.mp hstart
      · have hedge : g.Edge top start :=
          mem_neighbours.mp (List.mem_of_mem_filter (List.mem_reverse.mp hbelow))
        exact ⟨top, List.mem_cons_self, hpath.head hedge⟩
      · exact ⟨start, List.mem_cons_of_mem _ hstack, hpath⟩
  | case3 unseen top stack hmem ih =>
    obtain ⟨start, hstart, hpath⟩ := ih h
    exact ⟨start, List.mem_cons_of_mem _ hstart, hpath⟩

theorem mem_walk_of_mem_stack {node : NodeId} (hstack : node ∈ stack) (hunseen : node ∈ unseen) :
    node ∈ g.walk unseen stack := by
  fun_induction walk g unseen stack with
  | case1 unseen => cases hstack
  | case2 unseen top stack hmem rest ih =>
    by_cases heq : node = top
    · exact heq ▸ List.mem_cons_self
    · have hrest := List.mem_of_ne_of_mem heq hstack
      have hnode := (List.mem_erase_of_ne heq).mpr hunseen
      exact List.mem_cons_of_mem _ (ih (List.mem_append_right _ hrest) hnode)
  | case3 unseen top stack hmem ih =>
    have hne : node ≠ top := fun heq => hmem (heq ▸ hunseen)
    exact ih (List.mem_of_ne_of_mem hne hstack) hunseen

theorem mem_walk_of_edge {above below : NodeId} (habove : above ∈ g.walk unseen stack)
    (hedge : g.Edge above below) (hunseen : below ∈ unseen) : below ∈ g.walk unseen stack := by
  fun_induction walk g unseen stack with
  | case1 unseen => cases habove
  | case2 unseen top stack hmem rest ih =>
    by_cases heq : below = top
    · exact heq ▸ List.mem_cons_self
    · have hrest : below ∈ rest := (List.mem_erase_of_ne heq).mpr hunseen
      refine List.mem_cons_of_mem _ ?_
      obtain rfl | hlater := List.mem_cons.mp habove
      · have hpushed : below ∈ (g.neighbours above).filter (· ∈ rest) :=
          List.mem_filter.mpr ⟨mem_neighbours.mpr hedge, by simpa using hrest⟩
        exact mem_walk_of_mem_stack
          (List.mem_append_left _ (List.mem_reverse.mpr hpushed)) hrest
      · exact ih hlater hrest
  | case3 unseen top stack hmem ih => exact ih habove hunseen

end Walk

end Graph

namespace Search

/-- What is relied on of a search: it meets the nodes reachable from the root, none of them twice. -/
structure Lawful (search : Search) : Prop where
  nodup (g : Graph) (root : NodeId) : (search.order g root).Nodup
  mem_iff {g : Graph} {root node : NodeId} : g.Closed → root ∈ g.nodes →
    (node ∈ search.order g root ↔ Relation.ReflTransGen g.Edge root node)

theorem depthFirst_lawful : depthFirst.Lawful where
  nodup g root := (Graph.walk_subset g.nodup_nodes).1
  mem_iff := by
    intro g root node hclosed hroot
    constructor
    · intro h
      obtain ⟨start, hstart, hpath⟩ := Graph.exists_path_of_mem_walk h
      exact List.mem_singleton.mp hstart ▸ hpath
    · intro hpath
      induction hpath with
      | refl => exact Graph.mem_walk_of_mem_stack (List.mem_singleton_self root) hroot
      | tail _ hedge ih => exact Graph.mem_walk_of_edge ih hedge (hclosed _ hedge).2

end Search

/-- The first node is the root, any other one hangs below a node made before it. -/
structure Rooted (nodes : Array Node) : Prop where
  size_pos : 0 < nodes.size
  root_parent : ∀ {node}, nodes[0]? = some node → node.parent = none
  parent_lt : ∀ {k node}, 0 < k → nodes[k]? = some node →
    ∃ above, node.parent = some above ∧ above.index < k

namespace Registry

variable {r : Registry}

theorem edge_tree_iff {above below : NodeId} :
    r.tree.Edge above below ↔ ∃ node, r.nodes[below.index]? = some node ∧ node.parent = some above := by
  obtain ⟨k⟩ := below
  simp only [Graph.Edge, tree, List.mem_filterMap, Prod.exists, Option.map_eq_some_iff, Prod.mk.injEq,
    NodeId.mk.injEq, List.mem_zipIdx_iff_getElem?, Array.getElem?_toList]
  constructor
  · rintro ⟨node, j, hnode, parent, hparent, rfl, rfl⟩
    exact ⟨node, hnode, hparent⟩
  · rintro ⟨node, hnode, hparent⟩
    exact ⟨node, k, hnode, above, hparent, rfl, rfl⟩

section Rooted

variable (h : Rooted r.nodes)
include h

theorem lt_of_edge_tree {above below : NodeId} (hedge : r.tree.Edge above below) :
    above.index < below.index ∧ below.index < r.nodes.size := by
  obtain ⟨node, hnode, hparent⟩ := edge_tree_iff.mp hedge
  obtain ⟨hlt, -⟩ := Array.getElem?_eq_some_iff.mp hnode
  refine ⟨?_, hlt⟩
  rcases Nat.eq_zero_or_pos below.index with hzero | hpos
  · rw [hzero] at hnode
    rw [h.root_parent hnode] at hparent
    cases hparent
  · obtain ⟨parent, hsame, hbefore⟩ := h.parent_lt hpos hnode
    rw [hsame] at hparent
    exact Option.some.inj hparent ▸ hbefore

theorem closed_tree : r.tree.Closed := by
  intro edge hedge
  obtain ⟨hbefore, hlt⟩ := lt_of_edge_tree h hedge
  exact ⟨Graph.mem_nodes.mpr (Nat.lt_trans hbefore hlt), Graph.mem_nodes.mpr hlt⟩

theorem reachable_of_lt {k : Nat} (hk : k < r.nodes.size) :
    Relation.ReflTransGen r.tree.Edge ⟨0⟩ ⟨k⟩ := by
  induction k using Nat.strongRecOn with
  | ind k ih =>
    rcases Nat.eq_zero_or_pos k with rfl | hpos
    · exact .refl
    · obtain ⟨above, hparent, hlt⟩ := h.parent_lt hpos (Array.getElem?_eq_getElem hk)
      have hedge : r.tree.Edge above ⟨k⟩ :=
        edge_tree_iff.mpr ⟨_, Array.getElem?_eq_getElem hk, hparent⟩
      exact (ih above.index hlt (Nat.lt_trans hlt hk)).tail hedge

/-- A search from the root meets every node, and none twice. -/
theorem visited_perm {search : Search} (hsearch : search.Lawful) :
    (r.visited search).Perm r.tree.nodes := by
  have hroot : (⟨0⟩ : NodeId) ∈ r.tree.nodes := Graph.mem_nodes.mpr h.size_pos
  refine (List.perm_ext_iff_of_nodup (hsearch.nodup ..) r.tree.nodup_nodes).mpr fun node => ?_
  refine (hsearch.mem_iff (closed_tree h) hroot).trans ?_
  constructor
  · intro hpath
    rcases hpath.cases_tail with rfl | ⟨above, -, hedge⟩
    · exact hroot
    · exact (closed_tree h _ hedge).2
  · intro hnode
    exact reachable_of_lt h (Graph.mem_nodes.mp hnode)

end Rooted

end Registry

end LoopNest
