import Mathlib.Algebra.BigOperators.Group.List.Basic
import Mathlib.Algebra.GroupWithZero.Nat
import Mathlib.Data.List.Count
import Mathlib.Data.List.Flatten
import Mathlib.Data.List.Perm.Subperm
import Mathlib.Logic.Function.Basic
import Mathlib.Logic.Relation
import Mathlib.Order.Basic

/-!
# Cycle collection by trial deletion

A reference counting heap collects its cycles by taking from the count of every
node the references that come from other nodes.  A node with references left is
held from outside; it is kept with everything it leads to, and the others are
freed.
-/

namespace CycleCollection

/-- The nodes of a heap in the order of its list, the nodes that each one
refers to, and the counts. -/
structure Graph (Node : Type) where
  nodes : List Node
  children : Node → List Node
  count : Node → Int

variable {Node : Type} [DecidableEq Node]

/-- The references to a node from the listed nodes. -/
def references (children : Node → List Node) (nodes : List Node) (node : Node) : Nat :=
  (nodes.map fun parent => (children parent).count node).sum

/-- The references to a node from all nodes of the heap. -/
def Graph.internal (graph : Graph Node) : Node → Nat :=
  references graph.children graph.nodes

/-- One reference to `child` is taken away. -/
def decrefChild (count : Node → Int) (child : Node) : Node → Int :=
  Function.update count child (count child - 1)

/-- The counts without the references from nodes. -/
def Graph.decref (graph : Graph Node) : Node → Int :=
  graph.nodes.foldl (fun count node => (graph.children node).foldl decrefChild count)
    graph.count

/-- A child that was to be freed is kept, behind the nodes that are kept
already. -/
def increfChild (lists : List Node × List Node) (child : Node) : List Node × List Node :=
  if child ∈ lists.2 then (lists.1 ++ [child], lists.2.erase child) else lists

theorem length_increfChild (lists : List Node × List Node) (child : Node) :
    (increfChild lists child).1.length + (increfChild lists child).2.length =
      lists.1.length + lists.2.length := by
  unfold increfChild
  split
  · rename_i member
    have shorter := List.length_erase_of_mem member
    have positive := List.length_pos_of_mem member
    simp only [List.length_append, List.length_singleton]
    omega
  · rfl

theorem length_foldl_increfChild (children : List Node) (lists : List Node × List Node) :
    (children.foldl increfChild lists).1.length +
        (children.foldl increfChild lists).2.length =
      lists.1.length + lists.2.length := by
  induction children generalizing lists with
  | nil => rfl
  | cons child rest ih =>
      rw [List.foldl_cons, ih, length_increfChild]

/-- The kept nodes, those that they lead to included. -/
def scan (children : Node → List Node) : List Node → List Node → List Node
  | [], _ => []
  | node :: pending, doomed =>
      node :: scan children ((children node).foldl increfChild (pending, doomed)).1
        ((children node).foldl increfChild (pending, doomed)).2
  termination_by pending doomed => pending.length + doomed.length
  decreasing_by
    rw [length_foldl_increfChild]
    simp only [List.length_cons]
    omega

/-- The nodes that a collection leaves. -/
def Graph.collect (graph : Graph Node) : List Node :=
  scan graph.children
    (graph.nodes.filter fun node => graph.decref node ≠ 0)
    (graph.nodes.filter fun node => graph.decref node = 0)

/-! ## What is left -/

theorem foldl_decrefChild_apply (children : List Node) (count : Node → Int) (node : Node) :
    children.foldl decrefChild count node = count node - children.count node := by
  induction children generalizing count with
  | nil => simp
  | cons child rest ih =>
      rw [List.foldl_cons, ih]
      by_cases same : child = node
      · subst child
        rw [decrefChild, Function.update_self, List.count_cons_self]
        omega
      · rw [decrefChild, Function.update_of_ne (Ne.symm same), List.count_cons_of_ne same]

theorem foldl_children_apply (children : Node → List Node) (nodes : List Node)
    (count : Node → Int) (node : Node) :
    nodes.foldl (fun count node => (children node).foldl decrefChild count) count node =
      count node - references children nodes node := by
  induction nodes generalizing count with
  | nil => simp [references]
  | cons parent rest ih =>
      rw [List.foldl_cons, ih, foldl_decrefChild_apply]
      simp only [references, List.map_cons, List.sum_cons]
      omega

/-- What is left of a count are the references from outside. -/
theorem Graph.decref_apply (graph : Graph Node) (node : Node) :
    graph.decref node = graph.count node - graph.internal node :=
  foldl_children_apply graph.children graph.nodes graph.count node

@[simp]
theorem scan_nil (children : Node → List Node) (doomed : List Node) :
    scan children [] doomed = [] := by
  rw [scan]

theorem scan_ne_nil (children : Node → List Node) {pending : List Node}
    (doomed : List Node) (isPending : pending ≠ []) :
    scan children pending doomed ≠ [] := by
  cases pending with
  | nil => exact (isPending rfl).elim
  | cons node rest =>
      rw [scan]
      exact List.cons_ne_nil _ _

/-- A collection frees everything exactly when no node is referred to from
outside. -/
theorem Graph.collect_eq_nil_iff (graph : Graph Node) :
    graph.collect = [] ↔ ∀ node ∈ graph.nodes, graph.count node = graph.internal node := by
  have keeps : (graph.nodes.filter fun node => graph.decref node ≠ 0) = [] ↔
      ∀ node ∈ graph.nodes, graph.count node = graph.internal node := by
    simp only [List.filter_eq_nil_iff, decide_eq_true_eq, not_not]
    refine forall₂_congr fun node member => ?_
    rw [graph.decref_apply]
    omega
  rw [← keeps]
  constructor
  · intro freed
    by_contra kept
    exact scan_ne_nil _ _ kept freed
  · intro nothing
    rw [Graph.collect, nothing, scan_nil]

/-! ## What is kept -/

/-- One node refers to the other one. -/
def Leads (children : Node → List Node) (parent child : Node) : Prop :=
  child ∈ children parent

/-- The node is referred to from outside, or from such a node over others. -/
def Graph.Held (graph : Graph Node) (node : Node) : Prop :=
  ∃ root ∈ graph.nodes, graph.count root ≠ graph.internal root ∧
    Relation.ReflTransGen (Leads graph.children) root node

theorem references_eq_count (children : Node → List Node) (nodes : List Node) (node : Node) :
    references children nodes node = (nodes.flatMap children).count node := by
  simp [references, List.count_flatMap, Function.comp_def]

theorem references_perm (children : Node → List Node) {nodes others : List Node}
    (perm : nodes.Perm others) (node : Node) :
    references children nodes node = references children others node :=
  (perm.map _).sum_eq

theorem references_nil (children : Node → List Node) (node : Node) :
    references children [] node = 0 :=
  rfl

theorem references_cons (children : Node → List Node) (parent : Node) (nodes : List Node)
    (node : Node) :
    references children (parent :: nodes) node =
      (children parent).count node + references children nodes node := by
  rw [references, List.map_cons, List.sum_cons, references]

theorem references_append (children : Node → List Node) (nodes others : List Node)
    (node : Node) :
    references children (nodes ++ others) node =
      references children nodes node + references children others node := by
  simp [references]

theorem references_le (children : Node → List Node) {nodes others : List Node}
    (nodup : nodes.Nodup) (within : nodes ⊆ others) (node : Node) :
    references children nodes node ≤ references children others node := by
  obtain ⟨among, perm, sublist⟩ := List.subperm_of_subset nodup within
  rw [← references_perm children perm, references_eq_count, references_eq_count]
  exact (sublist.flatMap children).count_le node

theorem references_pos {children : Node → List Node} {nodes : List Node} {node : Node} :
    0 < references children nodes node ↔ ∃ parent ∈ nodes, node ∈ children parent := by
  rw [references_eq_count, List.count_pos_iff, List.mem_flatMap]

section Scan

variable {children : Node → List Node} {pending doomed : List Node} {node child : Node}

theorem increfChild_of_mem {lists : List Node × List Node} (member : child ∈ lists.2) :
    increfChild lists child = (lists.1 ++ [child], lists.2.erase child) :=
  if_pos member

theorem increfChild_of_not_mem {lists : List Node × List Node} (outside : child ∉ lists.2) :
    increfChild lists child = lists :=
  if_neg outside

/-- What has been kept before makes no difference. -/
theorem foldl_increfChild_append (added before rest doomed : List Node) :
    added.foldl increfChild (before ++ rest, doomed) =
      (before ++ (added.foldl increfChild (rest, doomed)).1,
        (added.foldl increfChild (rest, doomed)).2) := by
  induction added generalizing rest doomed with
  | nil => rfl
  | cons child others ih =>
      by_cases member : child ∈ doomed
      · rw [List.foldl_cons, List.foldl_cons, increfChild_of_mem member, increfChild_of_mem member,
          List.append_assoc, ih]
      · rw [List.foldl_cons, List.foldl_cons, increfChild_of_not_mem member,
          increfChild_of_not_mem member, ih]

theorem increfChild_perm (lists : List Node × List Node) (child : Node) :
    ((increfChild lists child).1 ++ (increfChild lists child).2).Perm (lists.1 ++ lists.2) := by
  by_cases member : child ∈ lists.2
  · rw [increfChild_of_mem member, List.append_assoc]
    exact ((List.perm_cons_erase member).symm).append_left _
  · rw [increfChild_of_not_mem member]

theorem foldl_increfChild_perm (added : List Node) (lists : List Node × List Node) :
    ((added.foldl increfChild lists).1 ++ (added.foldl increfChild lists).2).Perm
      (lists.1 ++ lists.2) := by
  induction added generalizing lists with
  | nil => exact .refl _
  | cons child rest ih => exact (ih _).trans (increfChild_perm lists child)

/-- The order of what is to be freed makes no difference. -/
theorem foldl_increfChild_congr (added rest : List Node) {doomed others : List Node}
    (perm : doomed.Perm others) :
    (added.foldl increfChild (rest, doomed)).1 = (added.foldl increfChild (rest, others)).1 ∧
      (added.foldl increfChild (rest, doomed)).2.Perm
        (added.foldl increfChild (rest, others)).2 := by
  induction added generalizing rest doomed others with
  | nil => exact ⟨rfl, perm⟩
  | cons child left ih =>
      by_cases member : child ∈ doomed
      · rw [List.foldl_cons, List.foldl_cons, increfChild_of_mem member,
          increfChild_of_mem (perm.mem_iff.mp member)]
        exact ih _ (perm.erase child)
      · rw [List.foldl_cons, List.foldl_cons, increfChild_of_not_mem member,
          increfChild_of_not_mem (mt perm.mem_iff.mpr member)]
        exact ih _ perm

theorem mem_foldl_increfChild_of_mem {added : List Node} {lists : List Node × List Node}
    (member : node ∈ lists.1) : node ∈ (added.foldl increfChild lists).1 := by
  induction added generalizing lists with
  | nil => exact member
  | cons child rest ih =>
      apply ih
      unfold increfChild
      split
      · exact List.mem_append_left _ member
      · exact member

/-- What was to be freed and is a child is kept. -/
theorem mem_foldl_increfChild_of_child {added : List Node} {lists : List Node × List Node}
    (isChild : node ∈ added) (member : node ∈ lists.2) :
    node ∈ (added.foldl increfChild lists).1 := by
  induction added generalizing lists with
  | nil => exact absurd isChild List.not_mem_nil
  | cons child rest ih =>
      rw [List.foldl_cons]
      rcases List.mem_cons.mp isChild with rfl | isRest
      · apply mem_foldl_increfChild_of_mem
        rw [increfChild_of_mem member]
        simp
      · by_cases same : node = child
        · subst same
          apply mem_foldl_increfChild_of_mem
          rw [increfChild_of_mem member]
          simp
        · apply ih isRest
          unfold increfChild
          split
          · exact (List.mem_erase_of_ne same).mpr member
          · exact member

/-- What is added to the kept nodes is a child. -/
theorem mem_foldl_increfChild {added : List Node} {lists : List Node × List Node}
    (member : node ∈ (added.foldl increfChild lists).1) : node ∈ lists.1 ∨ node ∈ added := by
  induction added generalizing lists with
  | nil => exact .inl member
  | cons child rest ih =>
      rcases ih member with before | isRest
      · unfold increfChild at before
        split at before
        · grind
        · exact .inl before
      · exact .inr (List.mem_cons_of_mem _ isRest)

theorem mem_scan_of_pending (member : node ∈ pending) : node ∈ scan children pending doomed := by
  induction pending, doomed using scan.induct children with
  | case1 doomed => exact absurd member List.not_mem_nil
  | case2 first rest doomed ih =>
      rw [scan]
      rcases List.mem_cons.mp member with rfl | isRest
      · exact List.mem_cons_self
      · exact List.mem_cons_of_mem _ (ih (mem_foldl_increfChild_of_mem isRest))

/-- A scan keeps what its nodes refer to. -/
theorem mem_scan_of_child (kept : node ∈ scan children pending doomed)
    (isChild : child ∈ children node) (member : child ∈ doomed) :
    child ∈ scan children pending doomed := by
  induction pending, doomed using scan.induct children with
  | case1 doomed => simp at kept
  | case2 first rest doomed ih =>
      rw [scan] at kept ⊢
      apply List.mem_cons_of_mem
      by_cases found : child ∈ ((children first).foldl increfChild (rest, doomed)).1
      · exact mem_scan_of_pending found
      · rcases List.mem_cons.mp kept with rfl | isRest
        · exact absurd (mem_foldl_increfChild_of_child isChild member) found
        · apply ih isRest
          have all := (foldl_increfChild_perm (children first) (rest, doomed)).mem_iff (a := child)
          simp only [List.mem_append] at all
          exact (all.mpr (.inr member)).resolve_left found

theorem exists_of_mem_scan (kept : node ∈ scan children pending doomed) :
    ∃ root ∈ pending, Relation.ReflTransGen (Leads children) root node := by
  induction pending, doomed using scan.induct children with
  | case1 doomed => simp at kept
  | case2 first rest doomed ih =>
      rw [scan] at kept
      rcases List.mem_cons.mp kept with rfl | isRest
      · exact ⟨node, List.mem_cons_self, .refl⟩
      · obtain ⟨root, member, leads⟩ := ih isRest
        rcases mem_foldl_increfChild member with isPending | isChild
        · exact ⟨root, List.mem_cons_of_mem _ isPending, leads⟩
        · exact ⟨first, List.mem_cons_self, .head isChild leads⟩

theorem scan_congr {others : List Node} (perm : doomed.Perm others) :
    scan children pending doomed = scan children pending others := by
  induction pending, doomed using scan.induct children generalizing others with
  | case1 doomed => rw [scan_nil, scan_nil]
  | case2 first rest doomed ih =>
      obtain ⟨same, left⟩ := foldl_increfChild_congr (children first) rest perm
      rw [scan, scan, ih left, same]

end Scan

/-- A collection keeps exactly the nodes that are held. -/
theorem Graph.mem_collect_iff (graph : Graph Node)
    (closed : ∀ node ∈ graph.nodes, ∀ child ∈ graph.children node, child ∈ graph.nodes)
    (node : Node) : node ∈ graph.collect ↔ graph.Held node := by
  have isRoot : ∀ root, graph.decref root ≠ 0 ↔ graph.count root ≠ graph.internal root := by
    intro root
    rw [graph.decref_apply]
    omega
  constructor
  · intro kept
    obtain ⟨root, member, leads⟩ := exists_of_mem_scan kept
    rw [List.mem_filter, decide_eq_true_eq, isRoot] at member
    exact ⟨root, member.1, member.2, leads⟩
  · rintro ⟨root, member, isHeld, leads⟩
    have both : node ∈ graph.nodes ∧ node ∈ graph.collect := by
      induction leads with
      | refl =>
          refine ⟨member, mem_scan_of_pending ?_⟩
          rw [List.mem_filter, decide_eq_true_eq, isRoot]
          exact ⟨member, isHeld⟩
      | @tail parent child _ isChild ih =>
          have isNode := closed parent ih.1 child isChild
          refine ⟨isNode, ?_⟩
          by_cases zero : graph.decref child = 0
          · exact mem_scan_of_child ih.2 isChild (by simp [isNode, zero])
          · exact mem_scan_of_pending (by simp [isNode, zero])
    exact both.2

/-! ## Other names for nodes -/

section Rename

variable {Other : Type} [DecidableEq Other] {rename : Node → Other}
  {children : Node → List Node} {others : Other → List Other}

theorem references_map (injective : Function.Injective rename)
    (same : ∀ node, others (rename node) = (children node).map rename)
    (nodes : List Node) (node : Node) :
    references others (nodes.map rename) (rename node) = references children nodes node := by
  induction nodes with
  | nil => rfl
  | cons parent rest ih =>
      rw [List.map_cons, references_cons, references_cons, ih, same,
        List.count_map_of_injective _ _ injective]

theorem increfChild_map (injective : Function.Injective rename)
    (lists : List Node × List Node) (child : Node) :
    increfChild (lists.1.map rename, lists.2.map rename) (rename child) =
      ((increfChild lists child).1.map rename, (increfChild lists child).2.map rename) := by
  by_cases member : child ∈ lists.2
  · rw [increfChild_of_mem member, increfChild_of_mem (List.mem_map_of_mem member),
      List.map_append, List.map_erase injective]
    rfl
  · have outside : rename child ∉ lists.2.map rename := by
      rwa [List.mem_map_of_injective injective]
    rw [increfChild_of_not_mem member, increfChild_of_not_mem outside]

theorem foldl_increfChild_map (injective : Function.Injective rename) (added : List Node)
    (lists : List Node × List Node) :
    (added.map rename).foldl increfChild (lists.1.map rename, lists.2.map rename) =
      ((added.foldl increfChild lists).1.map rename,
        (added.foldl increfChild lists).2.map rename) := by
  induction added generalizing lists with
  | nil => rfl
  | cons child rest ih =>
      rw [List.map_cons, List.foldl_cons, increfChild_map injective, ih, List.foldl_cons]

theorem scan_map (injective : Function.Injective rename)
    (same : ∀ node, others (rename node) = (children node).map rename)
    (pending doomed : List Node) :
    scan others (pending.map rename) (doomed.map rename) =
      (scan children pending doomed).map rename := by
  induction pending, doomed using scan.induct children with
  | case1 doomed => rw [scan_nil, List.map_nil, scan_nil]
  | case2 first rest doomed ih =>
      have fold := foldl_increfChild_map injective (children first) (rest, doomed)
      rw [List.map_cons, scan, scan, List.map_cons, same, fold, ih]

/-- A collection keeps the same nodes under other names. -/
theorem Graph.collect_map {graph : Graph Node} {renamed : Graph Other}
    (injective : Function.Injective rename) (nodes : renamed.nodes = graph.nodes.map rename)
    (same : ∀ node, renamed.children (rename node) = (graph.children node).map rename)
    (count : ∀ node ∈ graph.nodes, renamed.count (rename node) = graph.count node) :
    renamed.collect = graph.collect.map rename := by
  have decref : ∀ node ∈ graph.nodes, renamed.decref (rename node) = graph.decref node := by
    intro node member
    rw [Graph.decref_apply, Graph.decref_apply, count node member, Graph.internal, nodes,
      references_map injective same, Graph.internal]
  have filters (keeps : Int → Bool) :
      (renamed.nodes.filter fun node => keeps (renamed.decref node)) =
        (graph.nodes.filter fun node => keeps (graph.decref node)).map rename := by
    rw [nodes, List.filter_map]
    refine congrArg _ (List.filter_congr fun node member => ?_)
    rw [Function.comp_apply, decref node member]
  rw [Graph.collect, filters fun left => left ≠ 0, filters fun left => left = 0,
    scan_map injective same, Graph.collect]

end Rename

end CycleCollection
