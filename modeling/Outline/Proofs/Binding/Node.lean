import Mathlib.Data.List.Nodup
import Mathlib.Data.List.Lex
import Outline.Binding.Node

/-!
# Trees of nodes

The walk over nodes. Every node has a path, the places of its ancestors and its own among their
siblings, and **the walk meets each path once, in lexicographic order** (`walkNodes_eq_paths`,
`pairwise_nodePaths`, `mem_nodePaths`): each node stands before those below it, and those before its
later siblings.

* `nodes_induction`: induction over trees of nodes;
* `allNodes`, `boundSections`: the nodes of a walk, and the sections bound to them;
* `linked_of_mem_walkNodes`: a node that is met is a child of its parent, which is met too;
* `nodeAt?`, `nodePaths`: the node that a path leads to, and the paths that lead to one.
-/

namespace Outline

/-! ## Induction -/

mutual

theorem belowNode_induction {P : List Node → Prop} (nil : P [])
    (cons : ∀ n ns, P n.children → P ns → P (n :: ns)) : ∀ n : Node, P n.children
  | ⟨_, _, _, _, _, children⟩ => nodes_induction nil cons children

/-- Induction over trees of nodes. -/
@[elab_as_elim]
theorem nodes_induction {P : List Node → Prop} (nil : P [])
    (cons : ∀ n ns, P n.children → P ns → P (n :: ns)) : ∀ nodes, P nodes
  | [] => nil
  | n :: ns => cons n ns (belowNode_induction nil cons n) (nodes_induction nil cons ns)

end

/-! ## Walks -/

@[simp] theorem walkNodes_nil (ancestors : List Node) : walkNodes ancestors [] = [] := rfl

@[simp] theorem walkNodes_cons (ancestors : List Node) (n : Node) (ns : List Node) :
    walkNodes ancestors (n :: ns) =
      ⟨n, ancestors⟩ :: (walkNodes (n :: ancestors) n.children ++ walkNodes ancestors ns) := by
  cases n; rfl

theorem walkNodes_append (ancestors ns ns' : List Node) :
    walkNodes ancestors (ns ++ ns') = walkNodes ancestors ns ++ walkNodes ancestors ns' := by
  induction ns with
  | nil => rfl
  | cons n ns ih => simp [ih]

/-- Nodes and all nodes below them, each before those below it. -/
def allNodes (nodes : List Node) : List Node := (walkNodes [] nodes).map Placed.node

theorem map_node_walkNodes (nodes : List Node) : ∀ ancestors,
    (walkNodes ancestors nodes).map Placed.node = allNodes nodes := by
  unfold allNodes
  induction nodes using nodes_induction with
  | nil => intro ancestors; rfl
  | cons n ns ihn ih =>
    intro ancestors
    simp only [walkNodes_cons, List.map_cons, List.map_append]
    rw [ihn (n :: ancestors), ihn [n], ih ancestors]

@[simp] theorem allNodes_nil : allNodes [] = [] := rfl

@[simp] theorem allNodes_cons (n : Node) (ns : List Node) :
    allNodes (n :: ns) = n :: (allNodes n.children ++ allNodes ns) := by
  rw [allNodes, walkNodes_cons, List.map_cons, List.map_append, map_node_walkNodes,
    map_node_walkNodes]

theorem allNodes_append (ns ns' : List Node) :
    allNodes (ns ++ ns') = allNodes ns ++ allNodes ns' := by
  rw [allNodes, walkNodes_append, List.map_append, map_node_walkNodes, map_node_walkNodes]

theorem node_mem_allNodes {ancestors nodes : List Node} {p : Placed}
    (h : p ∈ walkNodes ancestors nodes) : p.node ∈ allNodes nodes := by
  rw [← map_node_walkNodes nodes ancestors]
  exact List.mem_map_of_mem h

theorem Node.boundTo_eq_none {n : Node} (h : n.isBound = false) : n.boundTo? = none := by
  unfold isBound at h
  simpa using h

/-- The sections bound to nodes and to all nodes below them, in the order of the walk. -/
def boundSections (nodes : List Node) : List Section := (allNodes nodes).filterMap Node.boundTo?

@[simp] theorem boundSections_nil : boundSections [] = [] := rfl

theorem boundSections_cons (n : Node) (ns : List Node) :
    boundSections (n :: ns) =
      n.boundTo?.toList ++ (boundSections n.children ++ boundSections ns) := by
  rw [boundSections, allNodes_cons, List.filterMap_cons, List.filterMap_append]
  cases n.boundTo? <;> rfl

theorem boundSections_append (ns ns' : List Node) :
    boundSections (ns ++ ns') = boundSections ns ++ boundSections ns' := by
  rw [boundSections, allNodes_append, List.filterMap_append]
  rfl

theorem mem_boundSections {nodes : List Node} {s : Section} :
    s ∈ boundSections nodes ↔ ∃ n ∈ allNodes nodes, n.boundTo? = some s :=
  List.mem_filterMap

/-- Nodes at the top of a walk have no other ancestors. -/
theorem mem_walkNodes_of_mem {nodes : List Node} {n : Node} (h : n ∈ nodes)
    (ancestors : List Node) : ⟨n, ancestors⟩ ∈ walkNodes ancestors nodes := by
  induction nodes with
  | nil => exact absurd h List.not_mem_nil
  | cons m ms ih =>
    rw [walkNodes_cons]
    rcases List.mem_cons.1 h with rfl | h
    · exact List.mem_cons_self
    · exact List.mem_cons_of_mem _ (List.mem_append_right _ (ih h))

/-- The nodes below a node that is met are met too. -/
theorem mem_walkNodes_children {nodes : List Node} : ∀ {ancestors : List Node} {p : Placed},
    p ∈ walkNodes ancestors nodes → ∀ {n : Node}, n ∈ p.node.children →
      ⟨n, p.node :: p.ancestors⟩ ∈ walkNodes ancestors nodes := by
  induction nodes using nodes_induction with
  | nil => intro _ _ h; exact absurd h List.not_mem_nil
  | cons m ms ihm ih =>
    intro ancestors p h n hn
    rw [walkNodes_cons, List.mem_cons, List.mem_append] at h
    rw [walkNodes_cons]
    refine List.mem_cons_of_mem _ (List.mem_append.2 ?_)
    rcases h with rfl | h | h
    · exact Or.inl (mem_walkNodes_of_mem hn _)
    · exact Or.inl (ihm h hn)
    · exact Or.inr (ih h hn)

/-- **A node that is met stands at the top, or below its parent, which is met too.** -/
theorem linked_of_mem_walkNodes {nodes : List Node} : ∀ {ancestors : List Node} {p : Placed},
    p ∈ walkNodes ancestors nodes → (p.ancestors = ancestors ∧ p.node ∈ nodes) ∨
      ∃ q ∈ walkNodes ancestors nodes, p.ancestors = q.node :: q.ancestors ∧
        p.node ∈ q.node.children := by
  induction nodes using nodes_induction with
  | nil => intro _ _ h; exact absurd h List.not_mem_nil
  | cons m ms ihm ih =>
    intro ancestors p h
    rw [walkNodes_cons, List.mem_cons, List.mem_append] at h
    rw [walkNodes_cons]
    rcases h with rfl | h | h
    · exact Or.inl ⟨rfl, List.mem_cons_self⟩
    · rcases ihm h with ⟨ha, hm⟩ | ⟨q, hq, ha, hm⟩
      · exact Or.inr ⟨⟨m, ancestors⟩, List.mem_cons_self, ha, hm⟩
      · exact Or.inr ⟨q, List.mem_cons_of_mem _ (List.mem_append_left _ hq), ha, hm⟩
    · rcases ih h with ⟨ha, hm⟩ | ⟨q, hq, ha, hm⟩
      · exact Or.inl ⟨ha, List.mem_cons_of_mem _ hm⟩
      · exact Or.inr ⟨q, List.mem_cons_of_mem _ (List.mem_append_right _ hq), ha, hm⟩

/-- The ancestors of a node that is met are met too, or stand around all of the walk. -/
theorem mem_allNodes_of_ancestor {nodes : List Node} : ∀ {ancestors : List Node} {p : Placed},
    p ∈ walkNodes ancestors nodes → ∀ m ∈ p.ancestors, m ∈ allNodes nodes ∨ m ∈ ancestors := by
  induction nodes using nodes_induction with
  | nil => intro _ _ h; exact absurd h List.not_mem_nil
  | cons n ns ihn ih =>
    intro ancestors p h m hm
    rw [walkNodes_cons, List.mem_cons, List.mem_append] at h
    rw [allNodes_cons, List.mem_cons, List.mem_append]
    rcases h with rfl | h | h
    · exact Or.inr hm
    · rcases ihn h m hm with hm | hm
      · exact Or.inl (Or.inr (Or.inl hm))
      · rcases List.mem_cons.1 hm with rfl | hm
        · exact Or.inl (Or.inl rfl)
        · exact Or.inr hm
    · exact (ih h m hm).imp_left fun hm => Or.inr (Or.inr hm)

/-- **A walk meets the nodes at its top and the nodes below each node that it meets.** -/
theorem walkNodes_perm (nodes : List Node) : ∀ ancestors,
    (walkNodes ancestors nodes).Perm (nodes.map (Placed.mk · ancestors) ++
      (walkNodes ancestors nodes).flatMap fun p =>
        p.node.children.map (Placed.mk · (p.node :: p.ancestors))) := by
  induction nodes using nodes_induction with
  | nil => intro ancestors; exact .refl _
  | cons n ns ihn ih =>
    intro ancestors
    rw [walkNodes_cons, List.map_cons, List.cons_append, List.flatMap_cons, List.flatMap_append]
    refine .cons _ (((ihn (n :: ancestors)).append (ih ancestors)).trans ?_)
    rw [← List.append_assoc (n.children.map _)]
    exact List.perm_append_comm_assoc _ _ _

/-! ## Paths -/

/-- The node that a path leads to, with its ancestors. -/
def nodeAt? : (ancestors nodes : List Node) → List Nat → Option Placed
  | _, _, [] => none
  | ancestors, nodes, [i] => nodes[i]?.map (⟨·, ancestors⟩)
  | ancestors, nodes, i :: j :: path =>
    nodes[i]?.bind fun n => nodeAt? (n :: ancestors) n.children (j :: path)

mutual

/-- The paths from a node to itself and to the nodes below it. -/
def Node.paths : Node → List (List Nat)
  | ⟨_, _, _, _, _, children⟩ => [] :: nodePaths children

/-- The paths to nodes and to the nodes below them. -/
def nodePaths : List Node → List (List Nat)
  | [] => []
  | n :: ns => n.paths.map (0 :: ·) ++ (nodePaths ns).map (List.modifyHead (· + 1))

end

theorem nodePaths_cons (n : Node) (ns : List Node) :
    nodePaths (n :: ns) = [0] :: ((nodePaths n.children).map (0 :: ·) ++
      (nodePaths ns).map (List.modifyHead (· + 1))) := by
  cases n; rfl

theorem ne_nil_of_mem_nodePaths {nodes : List Node} {path : List Nat}
    (h : path ∈ nodePaths nodes) : path ≠ [] := by
  induction nodes generalizing path with
  | nil => exact absurd h List.not_mem_nil
  | cons n ns ih =>
    rw [nodePaths_cons, List.mem_cons, List.mem_append, List.mem_map, List.mem_map] at h
    rcases h with rfl | ⟨q, _, rfl⟩ | ⟨q, hq, rfl⟩
    · exact List.cons_ne_nil _ _
    · exact List.cons_ne_nil _ _
    · have := ih hq
      cases q with
      | nil => exact absurd rfl this
      | cons j q => exact List.cons_ne_nil _ _

theorem nodeAt?_zero_cons (ancestors : List Node) (n : Node) (ns : List Node) {path : List Nat}
    (h : path ≠ []) :
    nodeAt? ancestors (n :: ns) (0 :: path) = nodeAt? (n :: ancestors) n.children path := by
  cases path with
  | nil => exact absurd rfl h
  | cons j path => rfl

theorem nodeAt?_succ (ancestors : List Node) (n : Node) (ns : List Node) (path : List Nat) :
    nodeAt? ancestors (n :: ns) (path.modifyHead (· + 1)) = nodeAt? ancestors ns path := by
  match path with
  | [] => rfl
  | [i] => simp [nodeAt?]
  | i :: j :: path => simp [nodeAt?]

/-- **The walk follows the paths.** -/
theorem walkNodes_eq_paths (nodes : List Node) : ∀ ancestors,
    (nodePaths nodes).map (nodeAt? ancestors nodes) = (walkNodes ancestors nodes).map some := by
  induction nodes using nodes_induction with
  | nil => intro ancestors; rfl
  | cons n ns ihn ih =>
    intro ancestors
    rw [nodePaths_cons, walkNodes_cons, List.map_cons, List.map_cons, List.map_append,
      List.map_append, List.map_map, List.map_map, ← ihn, ← ih]
    congr 2
    · exact List.map_congr_left fun p hp =>
        nodeAt?_zero_cons ancestors n ns (ne_nil_of_mem_nodePaths hp)
    · exact List.map_congr_left fun p _ => nodeAt?_succ ancestors n ns p

theorem modifyHead_succ_lt {p q : List Nat} (hp : p ≠ []) (h : p < q) :
    p.modifyHead (· + 1) < q.modifyHead (· + 1) := by
  match p, q with
  | [], _ => exact absurd rfl hp
  | _ :: _, [] => exact absurd h (List.not_lt_nil _)
  | i :: p, j :: q =>
    rw [List.modifyHead_cons, List.modifyHead_cons, List.cons_lt_cons_iff]
    rcases List.cons_lt_cons_iff.1 h with hij | ⟨rfl, hpq⟩
    · exact Or.inl (Nat.succ_lt_succ hij)
    · exact Or.inr ⟨rfl, hpq⟩

/-- **The paths are in lexicographic order.** -/
theorem pairwise_nodePaths (nodes : List Node) : (nodePaths nodes).Pairwise (· < ·) := by
  induction nodes using nodes_induction with
  | nil => exact List.Pairwise.nil
  | cons n ns ihn ih =>
    rw [nodePaths_cons, List.pairwise_cons, List.pairwise_append, List.pairwise_map,
      List.pairwise_map]
    have hlater : ∀ q ∈ (nodePaths ns).map (List.modifyHead (· + 1)), ∀ p : List Nat,
        0 :: p < q := by
      intro q hq p
      obtain ⟨r, hr, rfl⟩ := List.mem_map.1 hq
      cases r with
      | nil => exact absurd rfl (ne_nil_of_mem_nodePaths hr)
      | cons j r => exact List.cons_lt_cons_iff.2 (Or.inl (Nat.succ_pos j))
    refine ⟨fun q hq => ?_, ?_, ?_, ?_⟩
    · rcases List.mem_append.1 hq with hq | hq
      · obtain ⟨p, hp, rfl⟩ := List.mem_map.1 hq
        cases p with
        | nil => exact absurd rfl (ne_nil_of_mem_nodePaths hp)
        | cons j p => exact List.cons_lt_cons_iff.2 (Or.inr ⟨rfl, List.nil_lt_cons _ _⟩)
      · exact hlater q hq []
    · exact ihn.imp fun h => List.cons_lt_cons_iff.2 (Or.inr ⟨rfl, h⟩)
    · exact ih.imp_of_mem fun hp _ h => modifyHead_succ_lt (ne_nil_of_mem_nodePaths hp) h
    · intro p hp q hq
      obtain ⟨r, _, rfl⟩ := List.mem_map.1 hp
      exact hlater q hq r

/-- **The paths are those that lead to a node.** -/
theorem mem_nodePaths (nodes : List Node) : ∀ {ancestors : List Node} {path : List Nat},
    path ∈ nodePaths nodes ↔ (nodeAt? ancestors nodes path).isSome := by
  induction nodes using nodes_induction with
  | nil =>
    intro ancestors path
    match path with
    | [] | [_] | _ :: _ :: _ => simp [nodePaths, nodeAt?]
  | cons n ns ihn ih =>
    intro ancestors path
    rw [nodePaths_cons, List.mem_cons, List.mem_append, List.mem_map, List.mem_map]
    constructor
    · rintro (rfl | ⟨p, hp, rfl⟩ | ⟨p, hp, rfl⟩)
      · rfl
      · rw [nodeAt?_zero_cons ancestors n ns (ne_nil_of_mem_nodePaths hp)]
        exact ihn.1 hp
      · rw [nodeAt?_succ]
        exact ih.1 hp
    · intro h
      match path with
      | [] => cases h
      | [0] => exact Or.inl rfl
      | 0 :: j :: path => exact Or.inr (Or.inl ⟨j :: path, ihn.2 h, rfl⟩)
      | (i + 1) :: path =>
        rw [← List.modifyHead_cons (f := (· + 1)), nodeAt?_succ] at h
        exact Or.inr (Or.inr ⟨i :: path, ih.2 h, rfl⟩)

end Outline
