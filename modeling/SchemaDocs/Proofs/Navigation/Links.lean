import SchemaDocs.Proofs.Navigation.Nodes

/-!
# The links of a navigation tree

A tree keeps its links twice, as the parent of each node and as the children of each node, and the
operations update the two apart. `Linked` says that they agree and that every way up ends at the
root. Each operation keeps it: for a new child and for sorting this is read off the nodes, and for a
move it rests on the new parent not lying below the node that is moved.
-/

namespace SchemaDocs.PageTree

variable {tree next : PageTree} {index parent newParent other ancestor : Nat} {entry : NavEntry}

/-- A node is another or lies above it. -/
inductive AtOrAbove (tree : PageTree) (ancestor : Nat) : Nat → Prop where
  | self : AtOrAbove tree ancestor ancestor
  | up {index parent : Nat} (hparent : (tree.node index).parent = some parent)
      (habove : AtOrAbove tree ancestor parent) : AtOrAbove tree ancestor index

/-- Parents and children agree, and all nodes hang below the root. -/
structure Linked (tree : PageTree) : Prop where
  nonempty : root < tree.size
  root_parent : (tree.node root).parent = none
  mem_children_iff : ∀ parent child,
    child ∈ (tree.node parent).children ↔ (tree.node child).parent = some parent
  nodup_children : ∀ parent, (tree.node parent).children.Nodup
  rooted : ∀ index < tree.size, tree.AtOrAbove root index

theorem AtOrAbove.mono (hparents : ∀ index parent, (tree.node index).parent = some parent →
    (next.node index).parent = some parent) (h : tree.AtOrAbove ancestor index) : next.AtOrAbove ancestor index := by
  induction h with
  | self => exact .self
  | up hparent _ ih => exact .up (hparents _ _ hparent) ih

theorem AtOrAbove.trans {top : Nat} (hupper : tree.AtOrAbove top ancestor) (hlower : tree.AtOrAbove ancestor index) :
    tree.AtOrAbove top index := by
  induction hlower with
  | self => exact hupper
  | up hparent _ ih => exact .up hparent ih

namespace Linked

theorem exists_parent (h : tree.Linked) (hindex : index < tree.size) (hroot : index ≠ root) :
    ∃ parent, (tree.node index).parent = some parent := by
  cases h.rooted index hindex with
  | self => exact absurd rfl hroot
  | up hparent _ => exact ⟨_, hparent⟩

theorem ne_root_of_parent (h : tree.Linked) (hparent : (tree.node index).parent = some parent) : index ≠ root := by
  rintro rfl
  rw [h.root_parent] at hparent
  cases hparent

theorem parent_lt (h : tree.Linked) (hparent : (tree.node index).parent = some parent) : parent < tree.size :=
  lt_size_of_mem_children ((h.mem_children_iff parent index).mpr hparent)

theorem child_lt (h : tree.Linked) (hchild : index ∈ (tree.node parent).children) : index < tree.size :=
  lt_size_of_parent ((h.mem_children_iff parent index).mp hchild)

/-! ### Each operation keeps the links -/

theorem new (title : String) : (new title).Linked := by
  have hnode (index : Nat) : ((PageTree.new title).node index).parent = none ∧
      ((PageTree.new title).node index).children = [] := by
    rw [node_eq, PageTree.new]
    cases index <;> exact ⟨rfl, rfl⟩
  refine ⟨Nat.one_pos, (hnode root).1, fun parent child => ?_, fun parent => ?_, fun index hindex => ?_⟩
  · rw [(hnode parent).2, (hnode child).1]
    simp
  · rw [(hnode parent).2]
    exact List.nodup_nil
  · obtain rfl : index = root := Nat.lt_one_iff.mp hindex
    exact .self

private theorem of_perm (h : tree.Linked) (hsize : next.size = tree.size)
    (hparents : ∀ index, (next.node index).parent = (tree.node index).parent)
    (hchildren : ∀ index, (next.node index).children.Perm (tree.node index).children) : next.Linked where
  nonempty := hsize ▸ h.nonempty
  root_parent := (hparents root).trans h.root_parent
  mem_children_iff parent child := by
    rw [(hchildren parent).mem_iff, hparents, h.mem_children_iff]
  nodup_children parent := (hchildren parent).nodup_iff.mpr (h.nodup_children parent)
  rooted index hindex := (h.rooted index (hsize ▸ hindex)).mono fun index parent hparent =>
    (hparents index).trans hparent

theorem edit (h : tree.Linked) (hindex : index < tree.size) (change : NavEntry → NavEntry) :
    (tree.edit index change).Linked :=
  h.of_perm (size_edit ..) (parent_edit tree change hindex) fun other => by rw [children_edit tree change hindex]

theorem sort (h : tree.Linked) : tree.sort.Linked :=
  h.of_perm (size_sort tree) (fun index => by rw [node_sort]) fun index => by
    rw [node_sort]
    exact List.mergeSort_perm ..

theorem of_adds (h : tree.Linked) (hparent : parent < tree.size) (hadds : tree.Adds next parent entry) :
    next.Linked := by
  have hfresh : (tree.node tree.size).parent = none := by
    rw [node_of_size_le (Nat.le_refl _)]
    rfl
  have hunlisted (other : Nat) : tree.size ∉ (tree.node other).children := fun hmem =>
    Nat.lt_irrefl _ (h.child_lt hmem)
  have hkept (index parent : Nat) (hold : (tree.node index).parent = some parent) :
      (next.node index).parent = some parent := by
    rw [hadds.parents, if_neg (Nat.ne_of_lt (lt_size_of_parent hold)), hold]
  refine ⟨by rw [hadds.size]; exact Nat.succ_pos _, ?_, fun other child => ?_, fun other => ?_, fun index hindex => ?_⟩
  · rw [hadds.parents, if_neg (Nat.ne_of_lt h.nonempty), h.root_parent]
  · rw [hadds.children, hadds.parents]
    by_cases hchild : child = tree.size
    · subst hchild
      rw [if_pos rfl, Option.some.injEq]
      by_cases hother : other = parent
      · simp [hother]
      · rw [if_neg hother]
        exact iff_of_false (hunlisted other) (Ne.symm hother)
    · rw [if_neg hchild, ← h.mem_children_iff]
      split
      · simp [hchild]
      · rfl
  · rw [hadds.children]
    split
    · rw [List.nodup_append]
      refine ⟨h.nodup_children other, List.nodup_singleton _, fun a ha b hb heq => ?_⟩
      rw [heq, List.mem_singleton.mp hb] at ha
      exact hunlisted other ha
    · exact h.nodup_children other
  · by_cases hnew : index = tree.size
    · subst hnew
      exact .up (by rw [hadds.parents, if_pos rfl]) ((h.rooted parent hparent).mono hkept)
    · rw [hadds.size] at hindex
      exact (h.rooted index (by omega)).mono hkept

end Linked

namespace Moves

theorem mem_children_iff (h : tree.Linked) (hmoves : tree.Moves next index newParent) {child : Nat} :
    child ∈ (next.node other).children ↔ (next.node child).parent = some other := by
  rw [hmoves.children, hmoves.parents, List.mem_append]
  by_cases hchild : child = index
  · subst hchild
    have hunhooked : child ∉ if (tree.node child).parent = some other
        then (tree.node other).children.filter (· ≠ child) else (tree.node other).children := by
      split
      · simp
      · rename_i hparent
        exact fun hmem => hparent ((h.mem_children_iff other child).mp hmem)
    rw [if_pos rfl, Option.some.injEq, or_iff_right hunhooked]
    by_cases hother : other = newParent
    · simp [hother]
    · rw [if_neg hother]
      exact iff_of_false List.not_mem_nil (Ne.symm hother)
  · rw [if_neg hchild, ← h.mem_children_iff other child]
    have hnot : child ∉ if other = newParent then [index] else [] := by
      split <;> simp [hchild]
    rw [or_iff_left hnot]
    split
    · simp [hchild]
    · rfl

private theorem nodup_children (h : tree.Linked) (hdiffers : (tree.node index).parent ≠ some newParent)
    (hmoves : tree.Moves next index newParent) (other : Nat) : (next.node other).children.Nodup := by
  rw [hmoves.children]
  by_cases hother : other = newParent
  · subst hother
    rw [if_neg hdiffers, if_pos rfl, List.nodup_append]
    refine ⟨h.nodup_children other, List.nodup_singleton _, fun a ha b hb heq => ?_⟩
    rw [heq, List.mem_singleton.mp hb, h.mem_children_iff] at ha
    exact hdiffers ha
  · rw [if_neg hother, List.append_nil]
    split
    · exact (h.nodup_children other).filter _
    · exact h.nodup_children other

private theorem atOrAbove_of_not (hmoves : tree.Moves next index newParent) (hway : tree.AtOrAbove ancestor other)
    (hnot : ¬ tree.AtOrAbove index other) : next.AtOrAbove ancestor other := by
  induction hway with
  | self => exact .self
  | @up lower upper hparent _ ih =>
    have hlower : lower ≠ index := by
      rintro rfl
      exact hnot .self
    refine .up ?_ (ih fun habove => hnot (.up hparent habove))
    rw [hmoves.parents, if_neg hlower, hparent]

/-- A move leads the ways up through the node moved over its new parent and leaves the others. -/
theorem linked (h : tree.Linked) (hroot : index ≠ root) (hnewParent : newParent < tree.size)
    (hbelow : ¬ tree.AtOrAbove index newParent) (hdiffers : (tree.node index).parent ≠ some newParent)
    (hmoves : tree.Moves next index newParent) : next.Linked := by
  have hindex : next.AtOrAbove root index :=
    .up (by rw [hmoves.parents, if_pos rfl]) (hmoves.atOrAbove_of_not (h.rooted newParent hnewParent) hbelow)
  refine ⟨hmoves.size ▸ h.nonempty, ?_, fun other child => hmoves.mem_children_iff h,
    hmoves.nodup_children h hdiffers, fun other hother => ?_⟩
  · rw [hmoves.parents, if_neg hroot.symm, h.root_parent]
  · rw [hmoves.size] at hother
    have hway := h.rooted other hother
    clear hother
    induction hway with
    | self => exact .self
    | @up lower upper hparent _ ih =>
      by_cases hlower : lower = index
      · exact hlower ▸ hindex
      · refine .up ?_ ih
        rw [hmoves.parents, if_neg hlower, hparent]

end Moves

end SchemaDocs.PageTree
