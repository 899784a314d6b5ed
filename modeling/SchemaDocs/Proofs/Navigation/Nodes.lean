import SchemaDocs.Navigation.Tree
import Mathlib.Data.List.Nodup
import Mathlib.Tactic.SplitIfs

/-!
# What each operation does to the nodes of a tree

The operations on a navigation tree, seen through the three things that a node holds: what it shows,
its parent and its children. Every later proof about trees goes through these equations and none
unfolds an operation again. Numbers without a node read as a node without links, so most equations
need no bound.
-/

namespace SchemaDocs.PageTree

variable {tree next : PageTree} {index parent newParent other : Nat} {entry : NavEntry}

theorem node_eq (tree : PageTree) (index : Nat) : tree.node index = tree.nodes[index]?.getD default := by
  rw [node, Array.getD_eq_getD_getElem?]

theorem node_of_size_le (h : tree.size ≤ index) : tree.node index = default := by
  rw [node_eq, Array.getElem?_eq_none h, Option.getD_none]

theorem lt_size_of_parent {parent : Nat} (h : (tree.node index).parent = some parent) : index < tree.size := by
  by_contra hsize
  rw [node_of_size_le (by omega)] at h
  cases h

theorem lt_size_of_mem_children {child : Nat} (h : child ∈ (tree.node index).children) : index < tree.size := by
  by_contra hsize
  rw [node_of_size_le (by omega)] at h
  cases h

/-! ### Changing one node -/

@[simp] theorem size_modify (tree : PageTree) (index : Nat) (change : NavNode → NavNode) :
    (tree.modify index change).size = tree.size := by
  simp [modify, size]

private theorem node_modify (tree : PageTree) (change : NavNode → NavNode) (hindex : index < tree.size) (other : Nat) :
    (tree.modify index change).node other = if other = index then change (tree.node other) else tree.node other := by
  simp only [node_eq, modify, Array.getElem?_modify]
  by_cases h : index = other
  · subst h
    rw [if_pos rfl, if_pos rfl, Array.getElem?_eq_getElem hindex]
    rfl
  · rw [if_neg h, if_neg (Ne.symm h)]

@[simp] theorem size_edit (tree : PageTree) (index : Nat) (change : NavEntry → NavEntry) :
    (tree.edit index change).size = tree.size :=
  size_modify ..

theorem entry_edit (tree : PageTree) (change : NavEntry → NavEntry) (hindex : index < tree.size) (other : Nat) :
    ((tree.edit index change).node other).toNavEntry =
      if other = index then change (tree.node other).toNavEntry else (tree.node other).toNavEntry := by
  rw [edit, node_modify _ _ hindex]
  split <;> rfl

theorem parent_edit (tree : PageTree) (change : NavEntry → NavEntry) (hindex : index < tree.size) (other : Nat) :
    ((tree.edit index change).node other).parent = (tree.node other).parent := by
  rw [edit, node_modify _ _ hindex]
  split <;> rfl

theorem children_edit (tree : PageTree) (change : NavEntry → NavEntry) (hindex : index < tree.size) (other : Nat) :
    ((tree.edit index change).node other).children = (tree.node other).children := by
  rw [edit, node_modify _ _ hindex]
  split <;> rfl

/-! ### Adding a child -/

private theorem node_push (tree : PageTree) (added : NavNode) (other : Nat) :
    node ⟨tree.nodes.push added⟩ other = if other = tree.size then added else tree.node other := by
  rw [node_eq, node_eq, Array.getElem?_push, size]
  split <;> rfl

/-- What a tree has become by a new child. -/
structure Adds (tree next : PageTree) (parent : Nat) (entry : NavEntry) : Prop where
  vacant : tree.collision? parent entry.origin entry.name = none
  size : next.size = tree.size + 1
  entries : ∀ other, (next.node other).toNavEntry = if other = tree.size then entry else (tree.node other).toNavEntry
  parents : ∀ other, (next.node other).parent = if other = tree.size then some parent else (tree.node other).parent
  children : ∀ other, (next.node other).children =
    if other = parent then (tree.node other).children ++ [tree.size] else (tree.node other).children

theorem adds_of_addChild (hparent : parent < tree.size) (h : tree.addChild parent entry = .ok (index, next)) :
    index = tree.size ∧ tree.Adds next parent entry := by
  rw [addChild] at h
  split at h
  · cases h
  · rename_i hvacant
    obtain ⟨rfl, rfl⟩ := Prod.mk.inj (Except.ok.inj h)
    let grown : PageTree := ⟨tree.nodes.push { entry with parent := some parent }⟩
    have hgrown : grown.size = tree.size + 1 := Array.size_push _
    have hnode := node_modify grown (fun node => { node with children := node.children ++ [tree.size] })
      (show parent < grown.size by omega)
    have hnew : (tree.node tree.size).children = [] := by
      rw [node_of_size_le (Nat.le_refl _)]
      rfl
    refine ⟨rfl, hvacant, by rw [size_modify, ← hgrown], fun other => ?_, fun other => ?_, fun other => ?_⟩
    all_goals
      rw [hnode, node_push]
      by_cases hother : other = tree.size
      · subst hother
        simp [hnew, Nat.ne_of_gt hparent]
      · simp only [if_neg hother]
        split <;> rfl

/-! ### Moving a node -/

/-- What a tree has become by taking a node to a parent that is not its own. -/
structure Moves (tree next : PageTree) (index newParent : Nat) : Prop where
  vacant : tree.collision? newParent (tree.node index).origin (tree.node index).name = none
  size : next.size = tree.size
  entries : ∀ other, (next.node other).toNavEntry = (tree.node other).toNavEntry
  parents : ∀ other, (next.node other).parent = if other = index then some newParent else (tree.node other).parent
  children : ∀ other, (next.node other).children =
    (if (tree.node index).parent = some other then (tree.node other).children.filter (· ≠ index)
      else (tree.node other).children) ++ if other = newParent then [index] else []

/-- A tree in which a node is no child of its parent any more. -/
def unhook (tree : PageTree) (index : Nat) : PageTree :=
  match (tree.node index).parent with
  | some old => tree.modify old fun node => { node with children := node.children.filter (· ≠ index) }
  | none => tree

private theorem size_unhook (tree : PageTree) (index : Nat) : (tree.unhook index).size = tree.size := by
  rw [unhook]
  split
  · exact size_modify ..
  · rfl

private theorem node_unhook (hparent : ∀ parent, (tree.node index).parent = some parent → parent < tree.size)
    (other : Nat) :
    (tree.unhook index).node other =
      if (tree.node index).parent = some other then
        { tree.node other with children := (tree.node other).children.filter (· ≠ index) }
      else tree.node other := by
  rw [unhook]
  cases hold : (tree.node index).parent with
  | none => rfl
  | some old => simp only [node_modify _ _ (hparent old hold), Option.some.injEq, eq_comm]

theorem moveTo_eq (tree : PageTree) (index newParent : Nat) :
    tree.moveTo index newParent =
      if index = root || tree.isAncestor index newParent then
        .error ⟨(tree.node newParent).id, (tree.node index).id⟩
      else if (tree.node index).parent = some newParent then .ok tree
      else
        match tree.collision? newParent (tree.node index).origin (tree.node index).name with
        | some collision => .error collision
        | none =>
          .ok (((tree.unhook index).modify index fun node => { node with parent := some newParent }).modify newParent
            fun node => { node with children := node.children ++ [index] }) :=
  rfl

/-- A move that is carried out is allowed, and changes nothing if the node is there already. -/
theorem moves_of_moveTo (hindex : index < tree.size) (hnewParent : newParent < tree.size)
    (hparent : ∀ parent, (tree.node index).parent = some parent → parent < tree.size)
    (h : tree.moveTo index newParent = .ok next) :
    index ≠ root ∧ tree.isAncestor index newParent = false ∧
      ((tree.node index).parent = some newParent ∧ next = tree ∨
        (tree.node index).parent ≠ some newParent ∧ tree.Moves next index newParent) := by
  rw [moveTo_eq] at h
  simp only [Bool.or_eq_true, decide_eq_true_eq] at h
  split at h
  · cases h
  · rename_i hallowed
    rw [not_or, Bool.not_eq_true] at hallowed
    refine ⟨hallowed.1, hallowed.2, ?_⟩
    split at h
    · rename_i hsame
      exact .inl ⟨hsame, (Except.ok.inj h).symm⟩
    · rename_i hdiffers
      split at h
      · cases h
      · rename_i hvacant
        have hsize := tree.size_unhook index
        have hhung := node_modify (tree.unhook index) (fun node => { node with parent := some newParent })
          (show index < (tree.unhook index).size by omega)
        have hnext := node_modify ((tree.unhook index).modify index fun node => { node with parent := some newParent })
          (fun node => { node with children := node.children ++ [index] })
          (show newParent < _ by rw [size_modify]; omega)
        obtain rfl := Except.ok.inj h
        refine .inr ⟨hdiffers, hvacant, by rw [size_modify, size_modify, hsize], ?_, ?_, ?_⟩
        all_goals
          intro other
          rw [hnext, hhung, node_unhook hparent]
          split_ifs <;> simp

/-! ### Sorting -/

@[simp] theorem size_sort (tree : PageTree) : tree.sort.size = tree.size := by
  simp [sort, size]

theorem node_sort (tree : PageTree) (index : Nat) :
    tree.sort.node index =
      { tree.node index with children := (tree.node index).children.mergeSort tree.mayPrecede } := by
  rw [node_eq, node_eq, sort, Array.getElem?_map]
  cases tree.nodes[index]? with
  | some node => rfl
  | none =>
    rw [Option.map_none, Option.getD_none, show (default : NavNode).children = [] from rfl, List.mergeSort_nil]
    rfl

end SchemaDocs.PageTree
