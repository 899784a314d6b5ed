import SchemaDocs.Page.Discovery
import SchemaDocs.Proofs.Storage.Frame
import SchemaDocs.Proofs.Storage.Making

/-!
# Outside a directory

File systems that differ in one directory alone show the same to whoever stays outside of it. A path
whose names never lead into the directory finds the same tree, and pages that are found by such a path
are the same; a file that lies outside reads the same as soon as it can be read.
-/

namespace SchemaDocs

namespace FileSystem

variable {fs middle next other : FileSystem} {top place names : List String} {path : String} {leaf : Tree}
  {content held : ByteArray}

/-- Two file systems are the same but for a directory and what leads to it. -/
structure SameOutside (fs other : FileSystem) (top : List String) : Prop where
  workingDirectory : other.workingDirectory = fs.workingDirectory
  get : ∀ place, ¬ top <+: place → ¬ place <+: top → other.root.get? place = fs.root.get? place

namespace SameOutside

theorem symm (h : fs.SameOutside other top) : other.SameOutside fs top :=
  ⟨h.workingDirectory.symm, fun place hbelow habove => (h.get place hbelow habove).symm⟩

theorem trans (hfirst : fs.SameOutside middle top) (hsecond : middle.SameOutside next top) : fs.SameOutside next top :=
  ⟨hsecond.workingDirectory.trans hfirst.workingDirectory, fun place hbelow habove =>
    (hsecond.get place hbelow habove).trans (hfirst.get place hbelow habove)⟩

end SameOutside

/-- No tree is another one, except on the way to one of some places. -/
structure Spares (fs next : FileSystem) (places : List (List String)) : Prop where
  workingDirectory : next.workingDirectory = fs.workingDirectory
  get : ∀ place, (∀ other ∈ places, ¬ place <+: other) → next.root.get? place = fs.root.get? place

namespace Spares

variable {places others : List (List String)}

theorem refl (fs : FileSystem) : fs.Spares fs [] := ⟨rfl, fun _ _ => rfl⟩

theorem append (hfirst : fs.Spares middle places) (hsecond : middle.Spares next others) :
    fs.Spares next (places ++ others) where
  workingDirectory := hsecond.workingDirectory.trans hfirst.workingDirectory
  get place hplace := by
    obtain ⟨hplaces, hothers⟩ := List.forall_mem_append.mp hplace
    exact (hsecond.get place hothers).trans (hfirst.get place hplaces)

theorem of_writes (hmade : fs.Makes middle top names) {last : String}
    (hleaf : middle.HasLeaf next (top ++ (names ++ [last])) leaf) : fs.Spares next [top ++ (names ++ [last])] where
  workingDirectory := hleaf.workingDirectory.trans hmade.workingDirectory
  get place hplace := by
    have hplace := List.forall_mem_singleton.mp hplace
    rw [hleaf.spared place hplace]
    refine hmade.spared place fun hway => hplace (hway.trans ?_)
    rw [← List.append_assoc]
    exact List.prefix_append _ _

theorem bareAt?_eq (h : fs.Spares next places) (hplace : ∀ other ∈ places, ¬ place <+: other) :
    next.root.bareAt? place = fs.root.bareAt? place := by
  rw [Tree.bareAt?, Tree.bareAt?, h.get place hplace]

/-- Changes on the way to places in a directory are not seen from outside of it. -/
theorem sameOutside (h : fs.Spares next places) (hplaces : ∀ other ∈ places, top <+: other) : fs.SameOutside next top :=
  ⟨h.workingDirectory, fun place hbelow habove => h.get place fun other hother hway =>
    (List.prefix_or_prefix_of_prefix (hplaces other hother) hway).elim hbelow habove⟩

end Spares

/-- The place that a path leads to where all of its names stand for directories. -/
def placeOf (fs : FileSystem) (path : String) : List String := walk (fs.start path) (Text.pieces '/' path)

theorem eq_placeOf_of_locate (h : fs.locate path = .ok place) : place = fs.placeOf path :=
  eq_walk_of_follow (follow_of_locate h)

/-- A path leads to a place that a directory neither holds nor lies in, and on no way that leads below
this directory. -/
structure Avoids (fs : FileSystem) (path : String) (top : List String) : Prop where
  way : ∀ front rest, front <+: Text.pieces '/' path → walk (fs.start path) front = top ++ rest → rest = []
  apart : ¬ fs.placeOf path <+: top

section

variable (h : fs.SameOutside other top) (hfs : fs.root.bareAt? top = some (.directory []))
  (hother : other.root.bareAt? top = some (.directory []))
include h hfs hother

private theorem SameOutside.bareAt?_eq (hplace : ¬ top <+: place) :
    other.root.bareAt? place = fs.root.bareAt? place := by
  by_cases habove : place <+: top
  · obtain ⟨rest, rfl⟩ := habove
    rw [directory_of_append hfs, directory_of_append hother]
  · rw [Tree.bareAt?, Tree.bareAt?, h.get place hplace habove]

private theorem SameOutside.find_eq (hpath : fs.Avoids path top) : other.find path = fs.find path := by
  have hfollow : follow other.root (fs.start path) (Text.pieces '/' path) =
      follow fs.root (fs.start path) (Text.pieces '/' path) := by
    refine follow_congr fun front hfront _ => ?_
    by_cases hbelow : top <+: walk (fs.start path) front
    · obtain ⟨rest, hrest⟩ := hbelow
      rw [← hrest, hpath.way front rest hfront hrest.symm, List.append_nil, hfs, hother]
    · exact h.bareAt?_eq hfs hother hbelow
  have hlocate : other.locate path = fs.locate path := by
    rw [locate, locate, h.workingDirectory]
    split
    · rfl
    · split
      · rfl
      · exact hfollow
  rw [find, find, hlocate]
  cases hplace : fs.locate path with
  | error error => rfl
  | ok place =>
    have hbelow : ¬ top <+: place := by
      rintro ⟨rest, rfl⟩
      have hrest := hpath.way _ rest (List.prefix_refl _) (eq_placeOf_of_locate hplace).symm
      exact hpath.apart ⟨[], by rw [← eq_placeOf_of_locate hplace, hrest, List.append_nil, List.append_nil]⟩
    have habove : ¬ place <+: top := fun habove => hpath.apart (eq_placeOf_of_locate hplace ▸ habove)
    simp only [bind, Except.bind, h.get place hbelow habove]

theorem SameOutside.discover_eq (hpath : fs.Avoids path top) :
    Discovery.discover other path = Discovery.discover fs path := by
  rw [Discovery.discover, Discovery.discover, h.find_eq hfs hother hpath]

/-- A file outside of the directory reads the same in both file systems, if it can be read in both. -/
theorem SameOutside.eq_of_read (hpath : ¬ top <+: fs.placeOf path) (hread : fs.read path = .ok content)
    (hreadOther : other.read path = .ok held) : held = content := by
  obtain ⟨place, hplace, hcontent⟩ := read_eq_ok_iff.mp hread
  obtain ⟨found, hfound, hheld⟩ := read_eq_ok_iff.mp hreadOther
  obtain rfl := eq_placeOf_of_locate hplace
  have hsame : found = fs.placeOf path := by
    rw [eq_placeOf_of_locate hfound, placeOf, placeOf, start, start, h.workingDirectory]
  rw [hsame, h.bareAt?_eq hfs hother hpath, hcontent] at hheld
  exact (Tree.file.inj (Option.some.inj hheld)).symm

/-- A file outside of the directory reads the same where no directory is lost. -/
theorem SameOutside.read (hdirectories : ∀ place, fs.root.bareAt? place = some (.directory []) →
      other.root.bareAt? place = some (.directory [])) (hpath : ¬ top <+: fs.placeOf path)
    (hread : fs.read path = .ok content) : other.read path = .ok content := by
  obtain ⟨place, hplace, hcontent⟩ := read_eq_ok_iff.mp hread
  refine read_eq_ok_iff.mpr ⟨place, locate_mono h.workingDirectory hdirectories hplace, ?_⟩
  rw [← eq_placeOf_of_locate hplace] at hpath
  rw [h.bareAt?_eq hfs hother hpath, hcontent]

end

end FileSystem

end SchemaDocs
