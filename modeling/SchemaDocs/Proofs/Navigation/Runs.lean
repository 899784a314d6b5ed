import SchemaDocs.Proofs.Navigation.View

/-!
# Runs of operations on a navigation tree

Whatever is done to a tree that began with nothing but its root, it stays a tree: each operation
keeps the links, and so does any sequence of them. As long as no name and no kind is changed in
place, siblings keep apart as well.
-/

namespace SchemaDocs

namespace PageTree

/-- No two children of a node have both origin and name in common. -/
def SiblingsDiffer (tree : PageTree) : Prop :=
  ∀ parent, ∀ left ∈ (tree.node parent).children, ∀ right ∈ (tree.node parent).children,
    (tree.node left).origin = (tree.node right).origin → (tree.node left).name = (tree.node right).name → left = right

variable {tree next : PageTree} {index parent newParent : Nat} {entry : NavEntry}

theorem collision?_eq_none_iff {origin : Origin} {name : String} :
    tree.collision? parent origin name = none ↔
      ∀ child ∈ (tree.node parent).children, (tree.node child).origin = origin → (tree.node child).name ≠ name := by
  rw [collision?, Option.map_eq_none_iff, childNamed?, List.find?_eq_none]
  simp only [Bool.and_eq_true, decide_eq_true_eq, not_and, ne_eq]

namespace SiblingsDiffer

theorem new (title : String) : (PageTree.new title).SiblingsDiffer := by
  intro parent left hleft
  have hparent : parent = 0 := Nat.lt_one_iff.mp (lt_size_of_mem_children hleft)
  subst hparent
  cases hleft

theorem of_subset (h : tree.SiblingsDiffer)
    (hentries : ∀ index, (next.node index).origin = (tree.node index).origin ∧
      (next.node index).name = (tree.node index).name)
    (hchildren : ∀ parent, (next.node parent).children ⊆ (tree.node parent).children) : next.SiblingsDiffer := by
  intro parent left hleft right hright horigin hname
  rw [(hentries left).1, (hentries right).1] at horigin
  rw [(hentries left).2, (hentries right).2] at hname
  exact h parent left (hchildren parent hleft) right (hchildren parent hright) horigin hname

theorem of_adds (h : tree.SiblingsDiffer) (hlinked : tree.Linked) (hadds : tree.Adds next parent entry) :
    next.SiblingsDiffer := by
  have hvacant := collision?_eq_none_iff.mp hadds.vacant
  have hold {other child : Nat} (hchild : child ∈ (tree.node other).children) :
      (next.node child).toNavEntry = (tree.node child).toNavEntry := by
    rw [hadds.entries, if_neg (Nat.ne_of_lt (hlinked.child_lt hchild))]
  have hnew : (next.node tree.size).toNavEntry = entry := by rw [hadds.entries, if_pos rfl]
  intro other left hleft right hright horigin hname
  rw [hadds.children] at hleft hright
  by_cases hother : other = parent
  · subst hother
    rw [if_pos rfl, List.mem_append, List.mem_singleton] at hleft hright
    rcases hleft with hleft | rfl <;> rcases hright with hright | rfl
    · rw [hold hleft, hold hright] at horigin hname
      exact h other left hleft right hright horigin hname
    · rw [hold hleft, hnew] at horigin hname
      exact absurd hname (hvacant left hleft horigin)
    · rw [hold hright, hnew] at horigin hname
      exact absurd hname.symm (hvacant right hright horigin.symm)
    · rfl
  · rw [if_neg hother] at hleft hright
    rw [hold hleft, hold hright] at horigin hname
    exact h other left hleft right hright horigin hname

theorem of_moves (h : tree.SiblingsDiffer) (hmoves : tree.Moves next index newParent) : next.SiblingsDiffer := by
  have hvacant := collision?_eq_none_iff.mp hmoves.vacant
  have hchildren {other child : Nat} (hchild : child ∈ (next.node other).children) :
      child ∈ (tree.node other).children ∨ other = newParent ∧ child = index := by
    rw [hmoves.children, List.mem_append] at hchild
    rcases hchild with hchild | hchild
    · split at hchild
      · exact .inl (List.mem_filter.mp hchild).1
      · exact .inl hchild
    · split at hchild
      · rename_i hother
        exact .inr ⟨hother, List.mem_singleton.mp hchild⟩
      · cases hchild
  intro other left hleft right hright horigin hname
  rw [hmoves.entries, hmoves.entries] at horigin hname
  rcases hchildren hleft with hleft | ⟨rfl, rfl⟩
  · rcases hchildren hright with hright | ⟨rfl, rfl⟩
    · exact h other left hleft right hright horigin hname
    · exact absurd hname (hvacant left hleft horigin)
  · rcases hchildren hright with hright | ⟨-, rfl⟩
    · exact absurd hname.symm (hvacant right hright horigin.symm)
    · rfl

end SiblingsDiffer

/-! ### Operations -/

/-- What can be done to a tree. An edit changes what a node shows, in any way. -/
inductive Operation where
  | add (parent : Nat) (entry : NavEntry)
  | move (index newParent : Nat)
  | sort
  | edit (index : Nat) (change : NavEntry → NavEntry)

namespace Operation

/-- Steps on a tree, of which one may be refused. What was done before a refusal stays done. -/
abbrev Steps := ExceptT Collision (StateM PageTree)

/-- Refuses a name that a sibling of the same origin has. -/
def checkVacant (parent : Nat) (origin : Origin) (name : String) : Steps Unit := do
  match (← get).collision? parent origin name with
  | some collision => throw collision
  | none => pure ()

/-- The steps of an operation, each on the tree that those before it have left. -/
def steps : Operation → Steps Unit
  | add parent entry => do
    checkVacant parent entry.origin entry.name
    let index := (← get).size
    modifyThe PageTree fun tree => ⟨tree.nodes.push { entry with parent := some parent }⟩
    modifyThe PageTree fun tree => tree.modify parent fun node => { node with children := node.children ++ [index] }
  | move index newParent => do
    let tree ← get
    let moved := tree.node index
    if index = root || tree.isAncestor index newParent then
      throw ⟨(tree.node newParent).id, moved.id⟩
    else if moved.parent = some newParent then
      pure ()
    else
      checkVacant newParent moved.toNavEntry.origin moved.name
      modifyThe PageTree fun tree => tree.unhook index
      modifyThe PageTree fun tree => tree.modify index fun node => { node with parent := some newParent }
      modifyThe PageTree fun tree =>
        tree.modify newParent fun node => { node with children := node.children ++ [index] }
  | sort => modifyThe PageTree PageTree.sort
  | edit index change => modifyThe PageTree fun tree => tree.edit index change

def apply (operation : Operation) (tree : PageTree) : Except Collision Unit × PageTree :=
  (operation.steps.run).run tree

private theorem run_checkVacant_bind {origin : Origin} {name : String} (next : Unit → Steps Unit) :
    ((checkVacant parent origin name >>= next).run).run tree =
      match tree.collision? parent origin name with
      | some collision => (.error collision, tree)
      | none => ((next ()).run).run tree := by
  change (((match tree.collision? parent origin name with
    | some collision => throw collision
    | none => pure ()) >>= next).run).run tree = _
  cases tree.collision? parent origin name <;> rfl

private theorem apply_add :
    (add parent entry).apply tree =
      match tree.addChild parent entry with
      | .ok (_, next) => (.ok (), next)
      | .error collision => (.error collision, tree) := by
  rw [apply, steps, run_checkVacant_bind, addChild]
  cases tree.collision? parent entry.origin entry.name <;> rfl

private theorem apply_move :
    (move index newParent).apply tree =
      match tree.moveTo index newParent with
      | .ok next => (.ok (), next)
      | .error collision => (.error collision, tree) := by
  rw [apply, moveTo_eq]
  change ((if index = root || tree.isAncestor index newParent then _ else _ : Steps Unit).run).run tree = _
  split
  · rfl
  · split
    · rfl
    · rw [run_checkVacant_bind]
      cases tree.collision? newParent (tree.node index).origin (tree.node index).name <;> rfl

/-- The numbers in an operation are those of nodes. -/
def IsValid (tree : PageTree) : Operation → Prop
  | add parent _ => parent < tree.size
  | move index newParent => index < tree.size ∧ newParent < tree.size
  | sort => True
  | edit index _ => index < tree.size

/-- An operation changes no name and no kind in place. -/
def KeepsIdentity (tree : PageTree) : Operation → Prop
  | edit index change =>
    (change (tree.node index).toNavEntry).name = (tree.node index).name ∧
      (change (tree.node index).toNavEntry).kind = (tree.node index).kind
  | _ => True

/-- Each operation of a run meets a condition on the tree that it finds. -/
def Always (condition : PageTree → Operation → Prop) : PageTree → List Operation → Prop
  | _, [] => True
  | tree, operation :: operations =>
    condition tree operation ∧ Always condition (operation.apply tree).2 operations

instance decidableIsValid (tree : PageTree) : (operation : Operation) → Decidable (operation.IsValid tree)
  | add parent _ => inferInstanceAs (Decidable (parent < tree.size))
  | move index newParent => inferInstanceAs (Decidable (index < tree.size ∧ newParent < tree.size))
  | sort => inferInstanceAs (Decidable True)
  | edit index _ => inferInstanceAs (Decidable (index < tree.size))

instance decidableKeepsIdentity (tree : PageTree) : (operation : Operation) → Decidable (operation.KeepsIdentity tree)
  | add _ _ => inferInstanceAs (Decidable True)
  | move _ _ => inferInstanceAs (Decidable True)
  | sort => inferInstanceAs (Decidable True)
  | edit index change => inferInstanceAs (Decidable ((change (tree.node index).toNavEntry).name = (tree.node index).name ∧
      (change (tree.node index).toNavEntry).kind = (tree.node index).kind))

instance decidableAlways (condition : PageTree → Operation → Prop)
    [∀ tree operation, Decidable (condition tree operation)] :
    (tree : PageTree) → (operations : List Operation) → Decidable (Always condition tree operations)
  | _, [] => inferInstanceAs (Decidable True)
  | tree, operation :: operations =>
    have := decidableAlways condition (operation.apply tree).2 operations
    inferInstanceAs (Decidable (condition tree operation ∧ Always condition (operation.apply tree).2 operations))

private theorem apply_of_error {operation : Operation} {collision : Collision}
    (h : (operation.apply tree).1 = .error collision) : (operation.apply tree).2 = tree := by
  cases operation with
  | add parent entry =>
    rw [apply_add] at h ⊢
    cases hadd : tree.addChild parent entry with
    | ok result =>
      rw [hadd] at h
      cases h
    | error collision => rfl
  | move index newParent =>
    rw [apply_move] at h ⊢
    cases hmove : tree.moveTo index newParent with
    | ok next =>
      rw [hmove] at h
      cases h
    | error collision => rfl
  | sort => cases h
  | edit index change => cases h

private theorem apply_cases {operation : Operation} (h : tree.Linked) (hvalid : operation.IsValid tree) :
    (operation.apply tree).2 = tree ∨
      (∃ parent entry, parent < tree.size ∧ tree.Adds (operation.apply tree).2 parent entry) ∨
      (∃ index newParent, index ≠ root ∧ newParent < tree.size ∧ ¬ tree.AtOrAbove index newParent ∧
        (tree.node index).parent ≠ some newParent ∧ tree.Moves (operation.apply tree).2 index newParent) ∨
      (operation.apply tree).2 = tree.sort ∨
      ∃ index change, index < tree.size ∧ operation = edit index change ∧
        (operation.apply tree).2 = tree.edit index change := by
  cases operation with
  | add parent entry =>
    rw [apply_add]
    cases hadd : tree.addChild parent entry with
    | error collision => exact .inl rfl
    | ok result =>
      obtain ⟨index, next⟩ := result
      exact .inr (.inl ⟨parent, entry, hvalid, (adds_of_addChild hvalid hadd).2⟩)
  | move index newParent =>
    rw [apply_move]
    cases hmove : tree.moveTo index newParent with
    | error collision => exact .inl rfl
    | ok next =>
      obtain ⟨hroot, hbelow, ⟨-, rfl⟩ | ⟨hdiffers, hmoves⟩⟩ :=
        moves_of_moveTo hvalid.1 hvalid.2 (fun parent => h.parent_lt) hmove
      · exact .inl rfl
      · refine .inr (.inr (.inl ⟨index, newParent, hroot, hvalid.2, fun habove => ?_, hdiffers, hmoves⟩))
        rw [(h.isAncestor_iff hvalid.2).mpr habove] at hbelow
        cases hbelow
  | sort => exact .inr (.inr (.inr (.inl rfl)))
  | edit index change => exact .inr (.inr (.inr (.inr ⟨index, change, hvalid, rfl, rfl⟩)))

private theorem linked_apply {operation : Operation} (h : tree.Linked) (hvalid : operation.IsValid tree) :
    (operation.apply tree).2.Linked := by
  rcases apply_cases h hvalid with heq | ⟨parent, entry, hparent, hadds⟩ |
    ⟨index, newParent, hroot, hnewParent, hbelow, hdiffers, hmoves⟩ | heq | ⟨index, change, hindex, -, heq⟩
  · rw [heq]
    exact h
  · exact h.of_adds hparent hadds
  · exact hmoves.linked h hroot hnewParent hbelow hdiffers
  · rw [heq]
    exact h.sort
  · rw [heq]
    exact h.edit hindex change

private theorem siblingsDiffer_apply {operation : Operation} (h : tree.SiblingsDiffer) (hlinked : tree.Linked)
    (hvalid : operation.IsValid tree) (hkeeps : operation.KeepsIdentity tree) :
    (operation.apply tree).2.SiblingsDiffer := by
  rcases apply_cases hlinked hvalid with heq | ⟨parent, entry, -, hadds⟩ | ⟨index, newParent, -, -, -, -, hmoves⟩ |
    heq | ⟨index, change, hindex, rfl, heq⟩
  · rw [heq]
    exact h
  · exact h.of_adds hlinked hadds
  · exact h.of_moves hmoves
  · rw [heq]
    refine h.of_subset (fun index => by rw [node_sort]; exact ⟨rfl, rfl⟩) fun parent => ?_
    rw [node_sort]
    exact (List.mergeSort_perm ..).subset
  · rw [heq]
    refine h.of_subset (fun other => ?_) fun parent => by rw [children_edit tree change hindex]; exact fun _ => id
    rw [entry_edit tree change hindex]
    split
    · rename_i hother
      subst hother
      exact ⟨congrArg NodeKind.origin hkeeps.2, hkeeps.1⟩
    · exact ⟨rfl, rfl⟩

end Operation

/-! ### Runs -/

def run (tree : PageTree) (operations : List Operation) : PageTree :=
  operations.foldl (fun tree operation => (operation.apply tree).2) tree

private theorem linked_run {operations : List Operation} (h : tree.Linked)
    (hvalid : Operation.Always (fun tree operation => operation.IsValid tree) tree operations) :
    (tree.run operations).Linked := by
  induction operations generalizing tree with
  | nil => exact h
  | cons operation operations ih => exact ih (Operation.linked_apply h hvalid.1) hvalid.2

private theorem siblingsDiffer_run {operations : List Operation} (h : tree.SiblingsDiffer) (hlinked : tree.Linked)
    (hvalid : Operation.Always (fun tree operation => operation.IsValid tree) tree operations)
    (hkeeps : Operation.Always (fun tree operation => operation.KeepsIdentity tree) tree operations) :
    (tree.run operations).SiblingsDiffer := by
  induction operations generalizing tree with
  | nil => exact h
  | cons operation operations ih =>
    exact ih (Operation.siblingsDiffer_apply h hlinked hvalid.1 hkeeps.1) (Operation.linked_apply hlinked hvalid.1)
      hvalid.2 hkeeps.2

/-! ### What holds after a run -/

/-- What can be relied on in a tree, whatever has been done to it. -/
structure IsSound (tree : PageTree) : Prop where
  root_parent : (tree.node root).parent = none
  root_unlisted : ∀ parent, root ∉ (tree.node parent).children
  /-- Every other node is a child of one node, its parent, and is listed there once. -/
  listed : ∀ index < tree.size, index ≠ root → ∃ parent < tree.size, (tree.node index).parent = some parent ∧
    (tree.node parent).children.count index = 1 ∧ ∀ other ≠ parent, index ∉ (tree.node other).children
  child_lt : ∀ parent, ∀ child ∈ (tree.node parent).children, child < tree.size
  /-- The way up from a node ends at the root, before it is as long as there are nodes. -/
  ends : ∀ index < tree.size, ∃ depth < tree.size, tree.HasDepth index depth
  isAncestor_iff : ∀ ancestor, ∀ index < tree.size, tree.isAncestor ancestor index ↔ tree.AtOrAbove ancestor index
  /-- A search upwards that may go on for longer finds nothing else. -/
  isMetAbove_eq : ∀ ancestor, ∀ index < tree.size, ∀ fuel ≥ tree.size,
    tree.isMetAbove ancestor fuel index = tree.isAncestor ancestor index
  /-- A node is shown with its children below it, none of which is cut off. -/
  viewBelow_eq : ∀ index < tree.size, ∀ fuel ≥ tree.size, tree.viewBelow fuel index =
    .node (tree.node index).toNavEntry ((tree.node index).children.map (tree.viewBelow fuel))
  /-- More levels show nothing else. -/
  view_eq : ∀ fuel ≥ tree.size, tree.viewBelow fuel root = tree.view
  /-- The view shows all nodes in some order, each of them once. -/
  entries_view : ∃ order : List Nat, order.Perm (List.range tree.size) ∧
    tree.view.entries = order.map fun index => (tree.node index).toNavEntry

private theorem Linked.isSound (h : tree.Linked) : tree.IsSound where
  root_parent := h.root_parent
  root_unlisted parent hmem := by
    rw [h.mem_children_iff, h.root_parent] at hmem
    cases hmem
  listed index hindex hroot := by
    obtain ⟨parent, hparent⟩ := h.exists_parent hindex hroot
    refine ⟨parent, h.parent_lt hparent, hparent, ?_, fun other hother hmem => ?_⟩
    · exact List.count_eq_one_of_mem (h.nodup_children parent) ((h.mem_children_iff parent index).mpr hparent)
    · rw [h.mem_children_iff, hparent] at hmem
      exact hother (Option.some.inj hmem).symm
  child_lt _ _ hchild := h.child_lt hchild
  ends index hindex := by
    obtain ⟨depth, hdepth⟩ := h.exists_depth hindex
    exact ⟨depth, h.depth_lt hdepth, hdepth⟩
  isAncestor_iff _ _ hindex := h.isAncestor_iff hindex
  isMetAbove_eq ancestor index hindex fuel hfuel := by
    obtain ⟨depth, hdepth⟩ := h.exists_depth hindex
    have hlt := h.depth_lt hdepth
    rw [Bool.eq_iff_iff, h.isMetAbove_iff hdepth (by omega), h.isAncestor_iff hindex]
  viewBelow_eq index hindex fuel hfuel := by
    obtain ⟨depth, hdepth⟩ := h.exists_depth hindex
    rw [h.viewBelow_congr hdepth (by omega) (by omega : tree.size ≤ depth + (fuel + 1) + 1), viewBelow]
  view_eq fuel hfuel := h.viewBelow_congr .root (by omega) (by omega)
  entries_view := h.entries_view

/-- Whatever is done to a tree that begins with its root, it stays a tree whose searches end.
Siblings keep apart until a name or kind is changed in place, and a refused operation changes
nothing. -/
theorem run_new (title : String) (operations : List Operation)
    (hvalid : Operation.Always (fun tree operation => operation.IsValid tree) (new title) operations) :
    ((new title).run operations).IsSound ∧
      (Operation.Always (fun tree operation => operation.KeepsIdentity tree) (new title) operations →
        ((new title).run operations).SiblingsDiffer) ∧
      ∀ (operation : Operation) (collision : Collision),
        (operation.apply ((new title).run operations)).1 = .error collision →
          (operation.apply ((new title).run operations)).2 = (new title).run operations :=
  ⟨(linked_run (.new title) hvalid).isSound, siblingsDiffer_run (.new title) (.new title) hvalid,
    fun _ _ => Operation.apply_of_error⟩

/-- A page that is put into a folder, retitled and sorted. -/
def sampleOperations : List Operation :=
  [.add root { kind := .folder, id := "guides", name := "guides", title := "Guides" },
    .add root { kind := .page, id := "setup", name := "setup", title := "Setup" },
    .move 2 1,
    .edit 2 fun entry => { entry with title := "Set up" },
    .sort]

theorem run_new_sample :
    Operation.Always (fun tree operation => operation.IsValid tree) (new "Docs") sampleOperations ∧
      Operation.Always (fun tree operation => operation.KeepsIdentity tree) (new "Docs") sampleOperations ∧
      ((new "Docs").run sampleOperations).IsSound ∧ ((new "Docs").run sampleOperations).SiblingsDiffer := by
  have hvalid : Operation.Always (fun tree operation => operation.IsValid tree) (new "Docs") sampleOperations := by
    decide
  have hkeeps : Operation.Always (fun tree operation => operation.KeepsIdentity tree) (new "Docs") sampleOperations := by
    decide
  obtain ⟨hsound, hdiffer, -⟩ := run_new "Docs" sampleOperations hvalid
  exact ⟨hvalid, hkeeps, hsound, hdiffer hkeeps⟩

end PageTree

end SchemaDocs
