import XmonadWayland.Nested.State

/-!
# XmonadWayland.Nested.Tree

The windows of River in Sway's tree: `river_windows` visits every node below the root once,
whatever the tree looks like.
-/

namespace XmonadWayland.Nested

/-! ## The nodes of a tree -/

mutual

/-- The node and all below it, tiled or floating. -/
def Node.all : Node → List Node
  | ⟨appId, pid, focused, nodes, floatingNodes⟩ =>
    ⟨appId, pid, focused, nodes, floatingNodes⟩ :: (allOf nodes ++ allOf floatingNodes)

def allOf : List Node → List Node
  | [] => []
  | node :: nodes => node.all ++ allOf nodes

end

/-- The nodes below several nodes, one by one. -/
theorem allOf_eq_flatMap (nodes : List Node) : allOf nodes = nodes.flatMap Node.all := by
  induction nodes with
  | nil => rfl
  | cons node nodes ih => rw [allOf, ih, List.flatMap_cons]

/-- A node stands before those below it. -/
theorem all_eq (node : Node) :
    node.all = node :: (allOf node.nodes ++ allOf node.floatingNodes) := by
  cases node
  rfl

/-- The nodes below two lists. -/
theorem allOf_append (nodes more : List Node) :
    allOf (nodes ++ more) = allOf nodes ++ allOf more := by
  rw [allOf_eq_flatMap, allOf_eq_flatMap, allOf_eq_flatMap, List.flatMap_append]

/-- The order of the nodes does not matter. -/
theorem perm_allOf {nodes nodes' : List Node} (h : nodes.Perm nodes') :
    (allOf nodes).Perm (allOf nodes') := by
  rw [allOf_eq_flatMap, allOf_eq_flatMap]
  exact h.flatMap_right Node.all

/-! ## The traversal -/

/-- What is pending after a node is popped holds all that was below it. -/
theorem perm_pending (node : Node) (pending : List Node) :
    (node :: allOf (node.floatingNodes.reverse ++ (node.nodes.reverse ++ pending))).Perm
      (allOf (node :: pending)) := by
  -- the order in which nodes are pushed does not matter
  have hpushed : (node.floatingNodes.reverse ++ (node.nodes.reverse ++ pending)).Perm
      (node.nodes ++ (node.floatingNodes ++ pending)) := by
    have hreversed := node.floatingNodes.reverse_perm.append
      ((node.nodes.reverse_perm).append_right pending)
    exact hreversed.trans (List.perm_append_comm_assoc _ _ _)
  refine ((perm_allOf hpushed).cons node).trans (List.Perm.of_eq ?_)
  rw [allOf_append, allOf_append, allOf, all_eq, List.cons_append, List.append_assoc]

/-- The loop's invariant: the windows of River are among those found and below those pending. -/
theorem riverWindowsFrom_perm (pid : Int) (pending found : List Node) :
    (riverWindowsFrom pid pending found).Perm
      (found ++ (allOf pending).filter (Node.isRiver pid)) := by
  fun_induction riverWindowsFrom pid pending found with
  | case1 found => simp [allOf]
  | case2 found node pending ih =>
      simp only [List.unattach_reverse, List.unattach_attach, dite_eq_ite] at ih
      have hpending := (perm_pending node pending).filter (Node.isRiver pid)
      refine ih.trans (List.Perm.trans ?_ (hpending.append_left found))
      by_cases hriver : node.isRiver pid = true
      · rw [if_pos hriver, List.filter_cons_of_pos hriver, List.append_assoc]
        exact .rfl
      · rw [if_neg hriver, List.filter_cons_of_neg hriver]

/-- The windows found are all of River's nodes in the tree, each as often as it is there. -/
theorem river_windows_found (tree : Node) (pid : Int) :
    (riverWindows tree pid).Perm (tree.all.filter (Node.isRiver pid)) := by
  have hfound := riverWindowsFrom_perm pid [tree] []
  rw [allOf, allOf, List.append_nil] at hfound
  exact hfound

end XmonadWayland.Nested
