import Mathlib.Tactic.SplitIfs
import SchemaDocs.Page.Discovery
import SchemaDocs.Proofs.Sequence
import SchemaDocs.Proofs.Storage.Places

/-!
# File systems of one shape

Two file systems have one shape if they have directories and files at the same places; a relation says, place
by place, how far the contents of two files may differ. Paths lead to the same places in both, and what is
done to both alike succeeds or fails in both, and leaves them with one shape.
-/

namespace SchemaDocs

/-- Two computations end with the same error, or with values that are related. -/
inductive EndAlike {ε α β : Type} (Relates : α → β → Prop) : Except ε α → Except ε β → Prop where
  | error (fault : ε) : EndAlike Relates (.error fault) (.error fault)
  | ok {left : α} {right : β} (h : Relates left right) : EndAlike Relates (.ok left) (.ok right)

theorem EndAlike.eq {ε α : Type} {left right : Except ε α} (h : EndAlike Eq left right) : right = left := by
  cases h with
  | error fault => rfl
  | ok h => rw [h]

/-- How the contents of the files at a place may differ. -/
abbrev ContentRelation := List String → ByteArray → ByteArray → Prop

variable {Relates : ContentRelation} {place names : List String} {left right leftNew rightNew : Tree}
  {leftEntries rightEntries : List (String × Tree)} {name path : String}

namespace Tree

mutual

/-- Two trees that lie at a place have one shape, and their files are related. -/
inductive Similar (Relates : ContentRelation) : List String → Tree → Tree → Prop where
  | file {place : List String} {content held : ByteArray} (h : Relates place content held) :
      Similar Relates place (.file content) (.file held)
  | directory {place : List String} {entries others : List (String × Tree)} (h : EntriesSimilar Relates place entries others) :
      Similar Relates place (.directory entries) (.directory others)

inductive EntriesSimilar (Relates : ContentRelation) : List String → List (String × Tree) → List (String × Tree) → Prop where
  | nil {place : List String} : EntriesSimilar Relates place [] []
  | cons {place : List String} {name : String} {tree other : Tree} {entries others : List (String × Tree)}
      (htree : Similar Relates (place ++ [name]) tree other) (h : EntriesSimilar Relates place entries others) :
      EntriesSimilar Relates place ((name, tree) :: entries) ((name, other) :: others)

end

mutual

theorem Similar.refl (hrefl : ∀ place content, Relates place content content) (place : List String) :
    (tree : Tree) → tree.Similar Relates place tree
  | .file content => .file (hrefl place content)
  | .directory entries => .directory (EntriesSimilar.refl hrefl place entries)

theorem EntriesSimilar.refl (hrefl : ∀ place content, Relates place content content) (place : List String) :
    (entries : List (String × Tree)) → EntriesSimilar Relates place entries entries
  | [] => .nil
  | (name, tree) :: entries => .cons (Similar.refl hrefl (place ++ [name]) tree) (EntriesSimilar.refl hrefl place entries)

end

mutual

theorem Similar.mono {Weaker : ContentRelation}
    (hweaker : ∀ place content held, Relates place content held → Weaker place content held)
    {place : List String} {left right : Tree} : left.Similar Relates place right → left.Similar Weaker place right
  | .file h => .file (hweaker _ _ _ h)
  | .directory h => .directory (EntriesSimilar.mono hweaker h)

theorem EntriesSimilar.mono {Weaker : ContentRelation}
    (hweaker : ∀ place content held, Relates place content held → Weaker place content held) {place : List String}
    {leftEntries rightEntries : List (String × Tree)} :
    EntriesSimilar Relates place leftEntries rightEntries → EntriesSimilar Weaker place leftEntries rightEntries
  | .nil => .nil
  | .cons htree h => .cons (Similar.mono hweaker htree) (EntriesSimilar.mono hweaker h)

end

/-! ### Looking up and putting -/

private theorem EntriesSimilar.lookup (name : String) {leftEntries rightEntries : List (String × Tree)} :
    EntriesSimilar Relates place leftEntries rightEntries →
      leftEntries.lookup name = none ∧ rightEntries.lookup name = none ∨
        ∃ tree other, leftEntries.lookup name = some tree ∧ rightEntries.lookup name = some other ∧
          tree.Similar Relates (place ++ [name]) other
  | .nil => .inl ⟨rfl, rfl⟩
  | .cons htree h => by
    rw [lookup_cons, lookup_cons]
    split
    · rename_i hname
      exact .inr ⟨_, _, rfl, rfl, hname ▸ htree⟩
    · exact h.lookup name

private theorem Similar.get? (h : left.Similar Relates place right) (names : List String) :
    left.get? names = none ∧ right.get? names = none ∨
      ∃ tree other, left.get? names = some tree ∧ right.get? names = some other ∧
        tree.Similar Relates (place ++ names) other := by
  induction names generalizing left right place with
  | nil =>
    rw [get?_nil, get?_nil, List.append_nil]
    exact .inr ⟨left, right, rfl, rfl, h⟩
  | cons name names ih =>
    cases h with
    | file _ => exact .inl ⟨rfl, rfl⟩
    | directory h =>
      rw [Tree.get?, Tree.get?, List.append_cons]
      rcases h.lookup name with ⟨hleft, hright⟩ | ⟨tree, other, hleft, hright, htree⟩
      · rw [hleft, hright]
        exact .inl ⟨rfl, rfl⟩
      · rw [hleft, hright]
        exact ih htree

private theorem EntriesSimilar.putEntry (htree : left.Similar Relates (place ++ [name]) right)
    (h : EntriesSimilar Relates place leftEntries rightEntries) :
    EntriesSimilar Relates place (Tree.putEntry name left leftEntries) (Tree.putEntry name right rightEntries) := by
  induction leftEntries generalizing rightEntries with
  | nil =>
    cases h with
    | nil => exact .cons htree .nil
  | cons entry entries ih =>
    cases h with
    | cons hfirst h =>
      rw [Tree.putEntry, Tree.putEntry]
      split_ifs
      · exact .cons htree (.cons hfirst h)
      · exact .cons htree h
      · exact .cons hfirst (ih h)

private theorem Similar.put (h : left.Similar Relates place right)
    (hnew : leftNew.Similar Relates (place ++ names) rightNew) :
    (left.put names leftNew).Similar Relates place (right.put names rightNew) := by
  induction names generalizing left right place with
  | nil =>
    rw [List.append_nil] at hnew
    cases left <;> cases right <;> exact hnew
  | cons name names ih =>
    cases h with
    | file h => exact .file h
    | directory h =>
      rw [Tree.put, Tree.put]
      refine .directory (.putEntry (ih ?_ (List.append_cons .. ▸ hnew)) h)
      rcases h.lookup name with ⟨hleft, hright⟩ | ⟨tree, other, hleft, hright, htree⟩
      · rw [hleft, hright]
        exact .directory .nil
      · rw [hleft, hright]
        exact htree

end Tree

namespace FileSystem

variable {fs other : FileSystem} {fuel : Nat} {content held : ByteArray}

/-- Two file systems of one shape, whose files are related. -/
structure Similar (Relates : ContentRelation) (fs other : FileSystem) : Prop where
  workingDirectory : other.workingDirectory = fs.workingDirectory
  root : fs.root.Similar Relates [] other.root

namespace Similar

theorem refl (hrefl : ∀ place content, Relates place content content) (fs : FileSystem) : fs.Similar Relates fs :=
  ⟨rfl, .refl hrefl _ _⟩

theorem mono {Weaker : ContentRelation} (h : fs.Similar Relates other)
    (hweaker : ∀ place content held, Relates place content held → Weaker place content held) : fs.Similar Weaker other :=
  ⟨h.workingDirectory, h.root.mono hweaker⟩

private theorem get? (h : fs.Similar Relates other) (place : List String) :
    fs.root.get? place = none ∧ other.root.get? place = none ∨
      ∃ tree otherTree, fs.root.get? place = some tree ∧ other.root.get? place = some otherTree ∧
        tree.Similar Relates place otherTree := h.root.get? place

private theorem put {leaf otherLeaf : Tree} (h : fs.Similar Relates other)
    (hleaf : leaf.Similar Relates place otherLeaf) :
    Similar Relates { fs with root := fs.root.put place leaf } { other with root := other.root.put place otherLeaf } :=
  ⟨h.workingDirectory, h.root.put hleaf⟩

private theorem follow_eq (h : fs.Similar Relates other) (place names : List String) :
    follow other.root place names = follow fs.root place names := by
  induction names generalizing place with
  | nil => rfl
  | cons name names ih =>
    rw [follow, follow]
    rcases h.get? place with ⟨hnone, hnoneOther⟩ | ⟨tree, otherTree, htree, hother, hsimilar⟩
    · rw [hnone, hnoneOther]
    · rw [htree, hother]
      cases hsimilar with
      | file _ => rfl
      | directory _ => simp only [ih]

theorem locate_eq (h : fs.Similar Relates other) (path : String) : other.locate path = fs.locate path := by
  rw [locate, locate, h.workingDirectory, h.follow_eq]

private theorem find (h : fs.Similar Relates other) (path : String) :
    EndAlike (fun left right => ∃ place, fs.locate path = .ok place ∧ left.Similar Relates place right)
      (fs.find path) (other.find path) := by
  rw [FileSystem.find, FileSystem.find, h.locate_eq]
  cases fs.locate path with
  | error error => exact .error error
  | ok place =>
    simp only [bind, Except.bind]
    rcases h.get? place with ⟨hnone, hnoneOther⟩ | ⟨tree, otherTree, htree, hother, hsimilar⟩
    · rw [hnone, hnoneOther]
      exact .error _
    · rw [htree, hother]
      exact .ok ⟨place, rfl, hsimilar⟩

theorem isDirectory_eq (h : fs.Similar Relates other) (path : String) :
    other.isDirectory path = fs.isDirectory path := by
  rw [isDirectory, isDirectory]
  generalize fs.find path = found, other.find path = foundOther, h.find path = hfind
  cases hfind with
  | error error => rfl
  | ok h =>
    obtain ⟨place, -, hsimilar⟩ := h
    cases hsimilar <;> rfl

/-- A path leads to files that are related. -/
theorem read (h : fs.Similar Relates other) (path : String) :
    EndAlike (fun content held => ∃ place, fs.locate path = .ok place ∧ Relates place content held)
      (fs.read path) (other.read path) := by
  rw [FileSystem.read, FileSystem.read]
  generalize fs.find path = found, other.find path = foundOther, h.find path = hfind
  cases hfind with
  | error error => exact .error error
  | ok h =>
    obtain ⟨place, hplace, hsimilar⟩ := h
    cases hsimilar with
    | file h => exact .ok ⟨place, hplace, h⟩
    | directory _ => exact .error _

/-! ### Changing both -/

theorem write (h : fs.Similar Relates other)
    (hcontent : ∀ place, fs.locate path = .ok place → Relates place content held) :
    EndAlike (Similar Relates) (fs.write path content) (other.write path held) := by
  rw [FileSystem.write, FileSystem.write, h.locate_eq]
  cases hlocate : fs.locate path with
  | error error => exact .error error
  | ok place =>
    have hput := h.put (Tree.Similar.file (hcontent place hlocate))
    simp only [bind, Except.bind]
    rcases h.get? place with ⟨hnone, hnoneOther⟩ | ⟨tree, otherTree, htree, hother, hsimilar⟩
    · rw [hnone, hnoneOther]
      exact .ok hput
    · rw [htree, hother]
      cases hsimilar with
      | file _ => exact .ok hput
      | directory _ => exact .error _

private theorem createDirectory (h : fs.Similar Relates other) (path : String) :
    EndAlike (Similar Relates) (fs.createDirectory path) (other.createDirectory path) := by
  rw [FileSystem.createDirectory, FileSystem.createDirectory]
  split
  · exact .error _
  · simp only [h.locate_eq]
    cases fs.locate (if Path.withoutTrailingSlashes path = "" then path else Path.withoutTrailingSlashes path) with
    | error error => exact .error error
    | ok place =>
      simp only [bind, Except.bind]
      rcases h.get? place with ⟨hnone, hnoneOther⟩ | ⟨tree, otherTree, htree, hother, hsimilar⟩
      · rw [hnone, hnoneOther]
        exact .ok (h.put (.directory .nil))
      · rw [htree, hother]
        exact .error _

private theorem createAncestors (h : fs.Similar Relates other) (fuel : Nat) (path : String) :
    (other.createAncestors fuel path).1 = (fs.createAncestors fuel path).1 ∧
      (fs.createAncestors fuel path).2.Similar Relates (other.createAncestors fuel path).2 := by
  induction fuel generalizing fs other path with
  | zero => exact ⟨rfl, h⟩
  | succ fuel ih =>
    rw [FileSystem.createAncestors, FileSystem.createAncestors]
    simp only [h.isDirectory_eq]
    split
    · exact ⟨rfl, h⟩
    · generalize fs.createDirectory path = made, other.createDirectory path = madeOther, h.createDirectory path = hmade
      cases hmade with
      | ok hmade => exact ⟨rfl, hmade⟩
      | error error =>
        cases error
        case notFound =>
          cases Path.parent? path with
          | none => exact ⟨rfl, h⟩
          | some parent =>
            obtain ⟨houtcome, hparent⟩ := ih h parent
            simp only
            generalize fs.createAncestors fuel parent = above, other.createAncestors fuel parent = aboveOther at houtcome hparent
            obtain ⟨outcome, middle⟩ := above
            obtain ⟨outcomeOther, middleOther⟩ := aboveOther
            obtain rfl : outcomeOther = outcome := houtcome
            cases outcomeOther with
            | error error => exact ⟨rfl, hparent⟩
            | ok _ =>
              simp only [hparent.isDirectory_eq]
              generalize middle.createDirectory path = last, middleOther.createDirectory path = lastOther,
                Similar.createDirectory hparent path = hlast
              cases hlast with
              | ok hlast => exact ⟨rfl, hlast⟩
              | error error => exact ⟨rfl, hparent⟩
        all_goals exact ⟨rfl, h⟩

theorem createDirectories (h : fs.Similar Relates other) (path : String) :
    (other.createDirectories path).1 = (fs.createDirectories path).1 ∧
      (fs.createDirectories path).2.Similar Relates (other.createDirectories path).2 :=
  h.createAncestors _ path

end Similar

end FileSystem

/-! ### Pages -/

namespace Discovery

/-- Files that hold pages are the same on both sides. -/
def KeepsPages (Relates : ContentRelation) : Prop :=
  ∀ place name content held, Relates (place ++ [name]) content held →
    ∀ directories, candidate? directories name content = candidate? directories name held

mutual

theorem candidates_eq (hpages : KeepsPages Relates) (directories : List String) {place : List String} {name : String}
    {left right : Tree} : left.Similar Relates (place ++ [name]) right →
      candidates directories name right = candidates directories name left
  | .file h => by rw [candidates, candidates, hpages _ _ _ _ h]
  | .directory h => by rw [candidates, candidates, entryCandidates_eq hpages (directories ++ [name]) h]

theorem entryCandidates_eq (hpages : KeepsPages Relates) (directories : List String) {place : List String}
    {leftEntries rightEntries : List (String × Tree)} : Tree.EntriesSimilar Relates place leftEntries rightEntries →
      entryCandidates directories rightEntries = entryCandidates directories leftEntries
  | .nil => rfl
  | .cons htree h => by
    rw [entryCandidates, entryCandidates, candidates_eq hpages directories htree, entryCandidates_eq hpages directories h]

end

/-- The same pages are found in file systems of one shape whose files with pages are the same. -/
theorem discover_eq (hpages : KeepsPages Relates) {fs other : FileSystem} (h : fs.Similar Relates other)
    (directory : String) :
    discover other directory = discover fs directory := by
  rw [discover, discover]
  generalize fs.find directory = found, other.find directory = foundOther, h.find directory = hfind
  cases hfind with
  | error error => rfl
  | ok h =>
    obtain ⟨place, -, hsimilar⟩ := h
    cases hsimilar with
    | file _ => rfl
    | directory h => simp only [entryCandidates_eq hpages [] h]

end Discovery

end SchemaDocs
