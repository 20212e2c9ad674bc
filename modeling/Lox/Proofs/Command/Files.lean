/-
Files by their names.

A path of names leads from a directory to a file below it: every name but the last one is that of a
directory in which the way goes on. Followed part by part, such a path comes to the bytes of the
file, since its parts between the slashes are the names again. The other parts that a path may have,
empty ones and dots, name no entry.
-/
import Lox.Command.Files

set_option autoImplicit false

namespace Lox

/-- An entry of a directory can have this name. -/
structure IsName (name : String) : Prop where
  ne_empty : name ≠ ""
  ne_here : name ≠ "."
  ne_above : name ≠ ".."
  no_slash : '/' ∉ name.toList
  size_le : name.utf8ByteSize ≤ Place.nameLimit

/-- Below these entries there is a file with these bytes, with these names on the way to it. -/
inductive FileTree.Below : List (String × FileTree) → List String → List UInt8 → Prop
  | file {entries : List (String × FileTree)} {name : String} {bytes : List UInt8} :
      entries.lookup name = some (.file bytes) → Below entries [name] bytes
  | directory {entries inner : List (String × FileTree)} {name : String} {names : List String}
      {bytes : List UInt8} : entries.lookup name = some (.directory inner) →
      Below inner names bytes → Below entries (name :: names) bytes

namespace Place

variable {p : Place} {name : String} {names : List String} {bytes : List UInt8}

theorem follow_file (hname : IsName name) (hlookup : p.entries.lookup name = some (.file bytes)) :
    p.follow [name] = .ok bytes := by
  have hsize : ¬ nameLimit < name.utf8ByteSize := Nat.not_lt.2 hname.size_le
  simp [follow, hname.ne_empty, hname.ne_here, hname.ne_above, hsize, hlookup]

theorem follow_directory {inner : List (String × FileTree)} (hname : IsName name)
    (hlookup : p.entries.lookup name = some (.directory inner)) :
    p.follow (name :: names) = follow ⟨inner, p.entries :: p.above⟩ names := by
  have hsize : ¬ nameLimit < name.utf8ByteSize := Nat.not_lt.2 hname.size_le
  simp [follow, hname.ne_empty, hname.ne_here, hname.ne_above, hsize, hlookup]

/-- The names on the way to a file lead to it. The induction is on the way, each step of which goes
down to a directory. -/
theorem follow_of_below (hbelow : FileTree.Below p.entries names bytes)
    (hnames : ∀ name ∈ names, IsName name) : p.follow names = .ok bytes := by
  generalize hentries : p.entries = entries at hbelow
  induction hbelow generalizing p with
  | file hlookup =>
    subst hentries
    exact follow_file (hnames _ (List.mem_singleton_self _)) hlookup
  | directory hlookup _ ih =>
    subst hentries
    rw [follow_directory (hnames _ (List.mem_cons_self ..)) hlookup]
    exact ih (fun name hname => hnames name (List.mem_cons_of_mem _ hname)) rfl

/-- The parts of a path of names are the names. -/
theorem parts_intercalate (hne : names ≠ []) (hnames : ∀ name ∈ names, IsName name) :
    (("/".intercalate names).toList.splitOn '/').map String.ofList = names := by
  have hslash : ∀ part ∈ names.map String.toList, '/' ∉ part := by
    intro part hpart
    obtain ⟨name, hname, rfl⟩ := List.mem_map.1 hpart
    exact (hnames name hname).no_slash
  have hparts : ("/".intercalate names).toList = ['/'].intercalate (names.map String.toList) :=
    String.toList_intercalate
  rw [hparts, List.splitOn_intercalate '/' hslash (by simpa using hne), List.map_map]
  simp [Function.comp_def]

/-- **A file is read by the names on the way to it**, unless the path gets too long. -/
theorem read_of_below (hbelow : FileTree.Below p.entries names bytes)
    (hnames : ∀ name ∈ names, IsName name)
    (hsize : ("/".intercalate names).utf8ByteSize ≤ pathLimit) :
    p.read ("/".intercalate names) = .ok bytes := by
  have hne : names ≠ [] := by cases hbelow <;> exact List.cons_ne_nil _ _
  have hfollow := follow_of_below hbelow hnames
  rw [read, if_neg (Nat.not_lt.2 hsize), parts_intercalate hne hnames]
  obtain ⟨name, names, rfl⟩ := List.exists_cons_of_ne_nil hne
  have hempty := (hnames name (List.mem_cons_self ..)).ne_empty
  -- the first part is not empty, so the path is neither empty nor one from the root
  split
  · rename_i heq
    exact absurd (List.cons.inj heq).1 hempty
  · rename_i heq
    exact absurd (List.cons.inj heq).1 hempty
  · exact hfollow

/-- A file of the directory is read by its name. -/
theorem read_entry (hname : IsName name) (hlookup : p.entries.lookup name = some (.file bytes)) :
    p.read name = .ok bytes := by
  have hsize : name.utf8ByteSize ≤ pathLimit := Nat.le_trans hname.size_le (by decide)
  exact read_of_below (.file hlookup) (by simpa using hname) hsize

end Place

end Lox
