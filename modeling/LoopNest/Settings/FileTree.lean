import LoopNest.Settings.Parse

/-!
Directory trees without links, and absolute paths in them. A path is looked up one component at a
time from the root: every component but the last must be a directory, empty components and `.` stay
where they are, `..` goes to the parent, and the root is its own parent. Names and paths have a
greatest length, and none holds the character NUL. Settings are those of the first settings file met
while the last component of a path is dropped again and again.
-/

namespace LoopNest

inductive FileTree where
  | file (content : ByteArray)
  | directory (entries : List (String × FileTree))

structure AbsolutePath where
  components : List String
deriving DecidableEq, Repr

namespace AbsolutePath

def text (p : AbsolutePath) : String := "/" ++ "/".intercalate p.components

def ofText (text : String) : AbsolutePath := ⟨text.splitOn "/"⟩

def join (p : AbsolutePath) (name : String) : AbsolutePath :=
  if p.components.getLast? = some "" then ⟨p.components.dropLast ++ [name]⟩
  else ⟨p.components ++ [name]⟩

def isStill (component : String) : Bool := component == "" || component == "."

def dropStill (components : List String) : List String :=
  (components.reverse.dropWhile isStill).reverse

/-- The path without its last component. This is a matter of spelling: `..` is a component like any
other. -/
def parent? (p : AbsolutePath) : Option AbsolutePath :=
  match dropStill p.components with
  | [] => none
  | first :: rest => some ⟨dropStill (first :: rest).dropLast⟩

theorem length_dropStill_le (components : List String) :
    (dropStill components).length ≤ components.length := by
  simpa [dropStill] using (List.dropWhile_sublist (p := isStill) (l := components.reverse)).length_le

theorem length_parent?_lt {p q : AbsolutePath} (h : p.parent? = some q) :
    q.components.length < p.components.length := by
  have hp := length_dropStill_le p.components
  unfold parent? at h
  split at h
  · cases h
  · rename_i first rest hd
    cases h
    have hq := length_dropStill_le (first :: rest).dropLast
    simp only [hd, List.length_dropLast, List.length_cons] at hp hq ⊢
    omega

/-- The path and what remains of it as its last components are dropped one by one. -/
def withAncestors (p : AbsolutePath) : List AbsolutePath :=
  match _ : p.parent? with
  | none => [p]
  | some q => p :: q.withAncestors
termination_by p.components.length
decreasing_by exact length_parent?_lt (by assumption)

end AbsolutePath

namespace FileTree

def maxNameBytes : Nat := 255

def maxPathBytes : Nat := 4095

/-- Looks up components below `here`; `above` are its ancestors, nearest first. -/
def walk : FileTree → List FileTree → List String → Except ReadFailure FileTree
  | here, _, [] => .ok here
  | .file _, _, _ :: _ => .error .notDirectory
  | .directory entries, above, name :: names =>
    if AbsolutePath.isStill name then walk (.directory entries) above names
    else if name = ".." then
      match above with
      | [] => walk (.directory entries) [] names
      | up :: above => walk up above names
    else if maxNameBytes < name.utf8ByteSize then .error .nameTooLong
    else
      match entries.lookup name with
      | some child => walk child (.directory entries :: above) names
      | none => .error .notFound

/-- The file or directory at a path. What is wrong with the path's text comes before what the tree
holds. -/
def resolve (root : FileTree) (p : AbsolutePath) : Except ReadFailure FileTree :=
  if p.text.toList.contains '\x00' then .error .nulInName
  else if maxPathBytes < p.text.utf8ByteSize then .error .nameTooLong
  else root.walk [] p.components

def exists? (root : FileTree) (p : AbsolutePath) : Bool := (root.resolve p).toOption.isSome

def readText (root : FileTree) (p : AbsolutePath) : Except ReadFailure String := do
  match ← root.resolve p with
  | .directory _ => .error .isDirectory
  | .file content =>
    match String.fromUTF8? content with
    | some text => .ok text
    | none => .error .notText

end FileTree

namespace LaunchSettings

def load (root : FileTree) (p : AbsolutePath) : Except SettingsError LaunchSettings := do
  let content ← (root.readText p).mapError (.unreadable p.text)
  parse content

def find? (root : FileTree) (start : AbsolutePath) : Option AbsolutePath :=
  (start.withAncestors.map (·.join settingsFileName)).find? root.exists?

def discover (root : FileTree) (start : AbsolutePath) : Except SettingsError LaunchSettings :=
  match find? root start with
  | some p => load root p
  | none => .ok {}

end LaunchSettings

end LoopNest
